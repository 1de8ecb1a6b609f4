import VideoRemap.Expr.Value
import VideoRemap.Proofs.Expr.Evaluate
import VideoRemap.Proofs.Span.Clamp
import VideoRemap.Proofs.Span.WellFormed

namespace VideoRemap

lemma max_eq_ite (a b : Int32) : max a b = if a ≤ b then b else a := rfl

lemma min_eq_ite (a b : Int32) : min a b = if a ≤ b then a else b := rfl

lemma toInt_max (a b : Int32) : (max a b).toInt = max a.toInt b.toInt := by
  rw [max_eq_ite]
  split
  case isTrue h => exact (Int.max_eq_right (Int32.le_iff_toInt_le.mp h)).symm
  case isFalse h =>
    rw [Int32.le_iff_toInt_le] at h
    exact (Int.max_eq_left (by omega)).symm

lemma toInt_min (a b : Int32) : (min a b).toInt = min a.toInt b.toInt := by
  rw [min_eq_ite]
  split
  case isTrue h => exact (Int.min_eq_left (Int32.le_iff_toInt_le.mp h)).symm
  case isFalse h =>
    rw [Int32.le_iff_toInt_le] at h
    exact (Int.min_eq_right (by omega)).symm

lemma foldl_add_eq (a : Int32) (vs : List Int32) : vs.foldl (· + ·) a = a + vs.sum := by
  induction vs generalizing a with
  | nil => exact (Int32.add_zero a).symm
  | cons v vs ih => rw [List.foldl_cons, ih, List.sum_cons, Int32.add_assoc]

def Point.ofPixel (width f i : Nat) : Point :=
  ⟨Int32.ofNat (i % width), Int32.ofNat (i / width), Int32.ofNat f⟩

def Point.pixels (width height f : Nat) : List Point :=
  (List.range (width * height)).map (ofPixel width f)

def Grid.Covers (g : Grid Int32) (points : List Point) : Prop :=
  ∀ v, (g.coordinate v).WellFormed ∧ (g.coordinate v).toList = points.map (·.coordinate v)

lemma Grid.Covers.pixelCount_eq {g : Grid Int32} {points : List Point} (h : g.Covers points) :
    g.pixelCount = points.length := by
  have hlist := congrArg List.length (h .x).2
  rwa [Span.length_toList, List.length_map] at hlist

lemma Grid.ofSize_covers {width height : Nat} (hwidth : 0 < width) (hheight : 0 < height) (f : Nat) :
    (ofSize width height f : Grid Int32).Covers (Point.pixels width height f) := by
  intro v
  rw [Point.pixels, List.map_map]
  cases v with
  | x => exact ⟨Span.wellFormed_columns .., Span.toList_columns hwidth hheight⟩
  | y => exact ⟨Span.wellFormed_rows .., Span.toList_rows hwidth hheight⟩
  | t =>
    have hcount : (ofSize width height f : Grid Int32).pixelCount = width * height :=
      Span.length_columns width height
    refine ⟨Span.wellFormed_constant _ _, ?_⟩
    change (Span.constant _ (Int32.ofNat f)).toList = (List.range _).map fun _ => Int32.ofNat f
    rw [Span.toList_constant, hcount, List.map_const', List.length_range]

namespace Expr

def Computes (points : List Point) (value : Point → Option Int32) :
    Except Fault (Span Int32) → Prop
  | .ok s => s.WellFormed ∧ s.toList.map some = points.map value
  | .error _ => ∃ p ∈ points, value p = none

variable {points : List Point} {u v : Point → Option Int32}

lemma Computes.congr {r : Except Fault (Span Int32)} (h : Computes points u r)
    (heq : ∀ p, u p = v p) : Computes points v r := by
  obtain rfl : u = v := funext heq
  exact h

lemma Computes.map {r : Except Fault (Span Int32)} (f : Span Int32 → Span Int32) (op : Int32 → Int32)
    (h : Computes points v r) (hformed : ∀ s, s.WellFormed → (f s).WellFormed)
    (hlist : ∀ s, (f s).toList = s.toList.map op) :
    Computes points (fun p => (v p).map op) (f <$> r) := by
  cases r with
  | error e =>
    obtain ⟨p, hp, hnone⟩ := h
    exact ⟨p, hp, Option.map_eq_none_iff.mpr hnone⟩
  | ok s =>
    obtain ⟨hs, hvalues⟩ := h
    have hmapped := congrArg (List.map (Option.map op)) hvalues
    rw [List.map_map, List.map_map] at hmapped
    refine ⟨hformed s hs, ?_⟩
    rw [hlist, List.map_map]
    exact hmapped

lemma Computes.bind {r : Except Fault (Span Int32)} {k : Span Int32 → Except Fault (Span Int32)}
    {w : Point → Int32 → Option Int32} (hr : Computes points u r)
    (hk : ∀ a, Computes points u (.ok a) → Computes points (fun p => u p >>= w p) (k a)) :
    Computes points (fun p => u p >>= w p) (r >>= k) := by
  cases r with
  | error e =>
    obtain ⟨p, hp, hnone⟩ := hr
    exact ⟨p, hp, Option.bind_eq_none_iff.mpr fun a ha => nomatch hnone.symm.trans ha⟩
  | ok a => exact hk a hr

lemma computes_combine {combine : Span Int32 → Span Int32 → Span Int32}
    {op : Int32 → Int32 → Int32}
    (hformed : ∀ a b, a.WellFormed → b.WellFormed → (combine a b).WellFormed)
    (hlist : ∀ a b, (combine a b).toList = List.zipWith op a.toList b.toList) {a b : Span Int32}
    (ha : Computes points u (.ok a)) (hb : Computes points v (.ok b)) :
    Computes points (fun p => do return op (← u p) (← v p)) (.ok (combine a b)) := by
  refine ⟨hformed a b ha.1 hb.1, ?_⟩
  rw [hlist, List.map_zipWith]
  exact Traversal.zipWith_eq_map _ ha.2 hb.2

def foldValues? (op : Int32 → Int32 → Int32) (es : List Expr) (p : Point) (a : Int32) :
    Option Int32 :=
  (values? p es).map fun vs => vs.foldl op a

lemma foldValues?_cons (op : Int32 → Int32 → Int32) (e : Expr) (es : List Expr) (p : Point) :
    foldValues? op (e :: es) p = fun a => e.value? p >>= fun b => foldValues? op es p (op a b) := by
  funext a
  simp only [foldValues?, values?]
  cases e.value? p <;> cases values? p es <;> rfl

lemma evaluateOnto_computes {g : Grid Int32} {combine : Span Int32 → Span Int32 → Span Int32}
    {op : Int32 → Int32 → Int32}
    (hformed : ∀ a b, a.WellFormed → b.WellFormed → (combine a b).WellFormed)
    (hlist : ∀ a b, (combine a b).toList = List.zipWith op a.toList b.toList) {acc : Span Int32}
    (hacc : Computes points u (.ok acc)) {es : List Expr}
    (hes : ∀ e ∈ es, Computes points (fun p => e.value? p) (e.evaluate g)) :
    Computes points (fun p => u p >>= foldValues? op es p) (evaluateOnto g combine acc es) := by
  induction es generalizing acc u with
  | nil => exact hacc.congr fun p => by cases u p <;> rfl
  | cons e es ih =>
    have he := hes e List.mem_cons_self
    have htail : ∀ e ∈ es, Computes points (fun p => e.value? p) (e.evaluate g) :=
      fun e he => hes e (List.mem_cons_of_mem _ he)
    simp only [evaluateOnto, foldValues?_cons]
    cases hb : e.evaluate g with
    | error fault =>
      rw [hb] at he
      obtain ⟨p, hp, hnone⟩ := he
      refine ⟨p, hp, ?_⟩
      simp only [hnone]
      cases u p <;> rfl
    | ok b =>
      rw [hb] at he
      refine (ih (computes_combine hformed hlist hacc he) htail).congr fun p => ?_
      cases u p <;> cases e.value? p <;> rfl

lemma value?_sum (p : Point) (e : Expr) (es : List Expr) :
    (sum (e :: es)).value? p = e.value? p >>= foldValues? (· + ·) es p := by
  simp only [value?, values?]
  cases e.value? p with
  | none => rfl
  | some a =>
    change _ = foldValues? (· + ·) es p a
    unfold foldValues?
    cases values? p es with
    | none => rfl
    | some vs => exact congrArg some (List.sum_cons.trans (foldl_add_eq a vs).symm)

lemma value?_product (p : Point) (e : Expr) (es : List Expr) :
    (product (e :: es)).value? p = e.value? p >>= foldValues? (· * ·) es p := by
  simp only [value?, values?]
  cases e.value? p with
  | none => rfl
  | some a =>
    have hstart (vs : List Int32) : (a :: vs).foldl (· * ·) 1 = vs.foldl (· * ·) a := by
      rw [List.foldl_cons, Int32.one_mul]
    change _ = foldValues? (· * ·) es p a
    unfold foldValues?
    cases values? p es with
    | none => rfl
    | some vs => exact congrArg some (hstart vs)

lemma clampTo_eq_max_min {low high : Int32} (hbounds : low ≤ high) (v : Int32) :
    Scalar.clampTo low high v = max low (min v high) := by
  rw [Ramp.clampTo_eq, max_eq_ite, min_eq_ite]
  grind

lemma quotient?_eq_value? {op : Quotient} (h : op ≠ .divide) :
    (Scalar.quotient? op : Int32 → Int32 → Option Int32) = op.value? := by
  cases op with
  | divide => exact absurd rfl h
  | remainder => rfl
  | align => rfl

section

variable {op : Int32 → Int32 → Option Int32} {a b s : Span Int32}
  (ha : Computes points u (.ok a)) (hb : Computes points v (.ok b))

include ha hb

lemma zipWith?_computes (hs : Span.zipWith? op a b = some s) :
    Computes points (fun p => do op (← u p) (← v p)) (.ok s) :=
  ⟨Span.wellFormed_zipWith? ha.1 hb.1 hs,
    (Span.toList_zipWith? hs).trans (Traversal.zipWith_eq_map op ha.2 hb.2)⟩

lemma exists_undefined_of_zipWith? (hs : Span.zipWith? op a b = none) :
    ∃ p ∈ points, (do op (← u p) (← v p)) = none := by
  have hnone := Span.none_mem_of_zipWith? hs ha.1 hb.1
  rw [Traversal.zipWith_eq_map op ha.2 hb.2] at hnone
  exact List.mem_map.mp hnone

end

section

variable {g : Grid Int32} {p₀ : Point} (hp₀ : p₀ ∈ points)

include hp₀

lemma evaluate_clamp_computes {e : Expr} (h : Computes points (fun p => e.value? p) (e.evaluate g))
    (low high : Int32) : Computes points (fun p => (clamp low high e).value? p)
      ((clamp low high e).evaluate g) := by
  simp only [evaluate]
  by_cases hbounds : high < low
  · rw [if_pos hbounds]
    exact ⟨p₀, hp₀, by simp only [value?, if_pos hbounds]⟩
  · rw [if_neg hbounds]
    have hle : low ≤ high := Int32.not_lt.mp hbounds
    refine (h.map _ (fun v => max low (min v high)) (fun s hs => Span.wellFormed_clamp hs _ _)
      fun s => ?_).congr fun p => ?_
    · change (s.clamp (Int32.ofInt low.toInt) (Int32.ofInt high.toInt)).toList = _
      rw [Int32.ofInt_toInt, Int32.ofInt_toInt, Span.toList_clamp hle]
      exact List.map_congr_left fun v _ => clampTo_eq_max_min hle v
    · simp only [value?, if_neg hbounds]

lemma evaluate_quotient_computes {l r : Expr}
    (hl : Computes points (fun p => l.value? p) (l.evaluate g))
    (hr : Computes points (fun p => r.value? p) (r.evaluate g)) (op : Quotient) :
    Computes points (fun p => (quotient op l r).value? p) ((quotient op l r).evaluate g) := by
  simp only [evaluate]
  by_cases hop : op = .divide
  · subst hop
    refine ⟨p₀, hp₀, ?_⟩
    simp only [value?]
    cases l.value? p₀ <;> cases r.value? p₀ <;> rfl
  · rw [if_neg fun h => hop h.1, quotient?_eq_value? hop]
    simp only [value?]
    refine hl.bind fun a ha => ?_
    cases hb : r.evaluate g with
    | error fault =>
      rw [hb] at hr
      obtain ⟨p, hp, hnone⟩ := hr
      refine ⟨p, hp, ?_⟩
      simp only [hnone]
      cases l.value? p <;> rfl
    | ok b =>
      rw [hb] at hr
      simp only [bind, Except.bind]
      cases hs : Span.zipWith? op.value? a b with
      | none => exact exists_undefined_of_zipWith? ha hr hs
      | some s => exact zipWith?_computes ha hr hs

end

lemma evaluate_computes {g : Grid Int32} (hg : g.Covers points) (hpoints : points ≠ []) (e : Expr) :
    Computes points (fun p => e.value? p) (e.evaluate g) := by
  obtain ⟨p₀, hp₀⟩ := List.exists_mem_of_ne_nil points hpoints
  induction e using Expr.induct with
  | var v =>
    obtain ⟨hformed, hlist⟩ := hg v
    refine ⟨hformed, ?_⟩
    rw [hlist, List.map_map]
    rfl
  | literal k =>
    cases k with
    | int k =>
      refine ⟨Span.wellFormed_constant _ _, ?_⟩
      change (Span.constant _ (Int32.ofInt k.toInt)).toList.map some = points.map fun _ => some k
      rw [Span.toList_constant, hg.pixelCount_eq, Int32.ofInt_toInt, List.map_replicate,
        List.map_const']
    | decimal k => exact ⟨p₀, hp₀, rfl⟩
  | scale k e ih =>
    cases k with
    | int k =>
      refine (ih.map (Span.scale (Int32.ofInt k.toInt)) (· * k)
        (fun s hs => Span.wellFormed_scale hs _) fun s => ?_).congr fun p => ?_
      · rw [Span.toList_scale, Int32.ofInt_toInt]
      · simp only [value?]
    | decimal k => exact ⟨p₀, hp₀, rfl⟩
  | clamp low high e ih => exact evaluate_clamp_computes hp₀ ih low high
  | sum es ih =>
    cases es with
    | nil => exact ⟨p₀, hp₀, by simp only [value?]⟩
    | cons e es =>
      simp only [evaluate]
      refine ((ih e List.mem_cons_self).bind fun a ha => ?_).congr fun p => (value?_sum p e es).symm
      exact evaluateOnto_computes (fun _ _ => Span.wellFormed_add) Span.toList_add ha
        fun e he => ih e (List.mem_cons_of_mem _ he)
  | product es ih =>
    cases es with
    | nil => exact ⟨p₀, hp₀, by simp only [value?]⟩
    | cons e es =>
      simp only [evaluate]
      refine ((ih e List.mem_cons_self).bind fun a ha => ?_).congr fun p => (value?_product p e es).symm
      exact evaluateOnto_computes (fun _ _ => Span.wellFormed_mul) Span.toList_mul ha
        fun e he => ih e (List.mem_cons_of_mem _ he)
  | quotient op l r ihl ihr => exact evaluate_quotient_computes hp₀ ihl ihr op

theorem evaluate_pixels {width height : Nat} (hwidth : 0 < width) (hheight : 0 < height) (f : Nat)
    (e : Expr) : Computes (Point.pixels width height f) (fun p => e.value? p)
      (e.evaluate (.ofSize width height f : Grid Int32)) := by
  refine e.evaluate_computes (Grid.ofSize_covers hwidth hheight f) fun hnil => ?_
  have hlength := congrArg List.length hnil
  rw [Point.pixels, List.length_map, List.length_range] at hlength
  exact absurd hlength (Nat.ne_of_gt (Nat.mul_pos hwidth hheight))

lemma evaluate_cases {width height : Nat} (hwidth : 0 < width) (hheight : 0 < height) (f : Nat)
    (e : Expr) :
    (∃ fault, e.evaluate (.ofSize width height f : Grid Int32) = .error fault ∧ fault.OfValue ∧
      ∃ i < width * height, e.value? (.ofPixel width f i) = none) ∨
    ∃ s, e.evaluate (.ofSize width height f : Grid Int32) = .ok s ∧
      s.toList.map some = (List.range (width * height)).map fun i => e.value? (.ofPixel width f i) := by
  have hyields := e.evaluate_ofSize_length (α := Int32) width height f
  have hcomputes := e.evaluate_pixels hwidth hheight f
  cases hs : e.evaluate (.ofSize width height f : Grid Int32) with
  | error fault =>
    rw [hs] at hyields hcomputes
    obtain ⟨p, hp, hnone⟩ := hcomputes
    obtain ⟨i, hi, rfl⟩ := List.mem_map.mp hp
    exact Or.inl ⟨fault, rfl, hyields, i, List.mem_range.mp hi, hnone⟩
  | ok s =>
    rw [hs] at hcomputes
    refine Or.inr ⟨s, rfl, hcomputes.2.trans ?_⟩
    rw [Point.pixels, List.map_map]
    rfl

end Expr

end VideoRemap

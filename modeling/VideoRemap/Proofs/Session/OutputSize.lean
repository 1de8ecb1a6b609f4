import VideoRemap.Proofs.Number.Rational
import VideoRemap.Proofs.Traversal
import VideoRemap.Session.OutputSize

namespace VideoRemap.OutputSize

open Number Traversal

def Gives (e : Expr) (n : Nat) : Prop :=
  ∃ v q, e.constant = .ok v ∧ rational? v = some q ∧ towardZero q = n

def Exceeds (e : Expr) : Prop :=
  ∃ v, e.constant = .ok v ∧
    (v.toModel.unpack = .infinity .positive ∨ ∃ q, rational? v = some q ∧ 2 ^ 64 ≤ q)

variable {d : Dimension} {e : Expr} {n : Nat}

lemma component_of_constant {v : Float} (h : e.constant = .ok v) : component d e =
    if (truncate v).isNaN || truncate v < 1 then .error (.sizeBelowOne d e (truncate v))
    else .ok (toNat (truncate v)) := by
  rw [component, h]
  rfl

lemma component_of_rational? {v : Float} (h : e.constant = .ok v) {q : ℚ} (hq : rational? v = some q) :
    component d e = .ok n ↔ 1 ≤ towardZero q ∧ n = min (towardZero q).toNat (2 ^ 64 - 1) := by
  have htruncated : rational? (truncate v) = some ((towardZero q : ℤ) : ℚ) := by
    rw [rational?_truncate, hq]
    rfl
  have hbelow : truncate v < 1 ↔ towardZero q < 1 := by
    rw [lt_one_iff htruncated]
    exact_mod_cast Iff.rfl
  rw [component_of_constant h, isNaN_of_rational? htruncated, Bool.false_or]
  by_cases hlt : towardZero q < 1
  · rw [if_pos (decide_eq_true (hbelow.mpr hlt))]
    exact ⟨(fun h => nomatch h), fun h => absurd h.1 (by omega)⟩
  · have hnonneg : (0 : ℚ) ≤ (towardZero q : ℤ) := by exact_mod_cast (show (0 : ℤ) ≤ towardZero q by omega)
    rw [if_neg (mt decide_eq_true_iff.mp (mt hbelow.mp hlt)), toNat_of_rational? htruncated hnonneg,
      Int.floor_intCast, Except.ok.injEq, and_iff_right (by omega)]
    exact eq_comm

lemma component_of_rational?_eq_none {v : Float} (h : e.constant = .ok v) (hv : rational? v = none) :
    component d e = .ok n ↔ v.toModel.unpack = .infinity .positive ∧ n = 2 ^ 64 - 1 := by
  have hone : (1 : Float).toModel.unpack = .finite .positive (2 ^ 52) (-52) (by decide) := rfl
  rw [component_of_constant h, truncate_of_rational?_eq_none hv]
  rcases rational?_cases v with ⟨_, -, hx⟩ | ⟨_, _, _, _, -, hx⟩ | ⟨s, hx, -⟩ | ⟨hx, -⟩
  · exact nomatch hv.symm.trans hx
  · exact nomatch hv.symm.trans hx
  · cases s with
    | negative =>
      have hlt : v < 1 := by
        rw [lt_iff_compare, hx, hone]
        rfl
      rw [decide_eq_true hlt, Bool.or_true, if_pos rfl, hx]
      exact ⟨(fun h => nomatch h), fun h => nomatch h.1⟩
    | positive =>
      have hnan : v.isNaN = false := by
        change v.toModel.unpack.isNaN = false
        rw [hx]
        rfl
      have hlt : ¬ v < 1 := by
        rw [lt_iff_compare, hx, hone]
        exact fun h => nomatch h
      rw [hnan, decide_eq_false hlt, Bool.or_false, if_neg Bool.false_ne_true, toNat_eq, hx,
        Except.ok.injEq, and_iff_right rfl]
      exact eq_comm
  · have hnan : v.isNaN = true := by
      change v.toModel.unpack.isNaN = true
      rw [hx]
      rfl
    rw [hnan, Bool.true_or, if_pos rfl, hx]
    exact ⟨(fun h => nomatch h), fun h => nomatch h.1⟩

lemma component_eq_ok_iff : component d e = .ok n ↔
    1 ≤ n ∧ n < 2 ^ 64 ∧ Gives e n ∨ n = 2 ^ 64 - 1 ∧ Exceeds e := by
  cases hconstant : e.constant with
  | error fault =>
    have hgives (n : Nat) : ¬ Gives e n := by
      rintro ⟨v, q, hv, -⟩
      cases hconstant.symm.trans hv
    have hexceeds : ¬ Exceeds e := by
      rintro ⟨v, hv, -⟩
      cases hconstant.symm.trans hv
    have herror : component d e = .error fault := by
      rw [component, hconstant]
      rfl
    simp [herror, hgives, hexceeds]
  | ok v =>
    have hgives (n : Nat) : Gives e n ↔ ∃ q, rational? v = some q ∧ towardZero q = n := by
      simp [Gives, hconstant]
    have hexceeds : Exceeds e ↔
        v.toModel.unpack = .infinity .positive ∨ ∃ q, rational? v = some q ∧ 2 ^ 64 ≤ q := by
      simp [Exceeds, hconstant]
    rw [hgives, hexceeds]
    cases hv : rational? v with
    | none =>
      rw [component_of_rational?_eq_none hconstant hv]
      simp [and_comm]
    | some q =>
      have hfinite : v.toModel.unpack ≠ .infinity .positive := fun h => by
        rw [rational?, h] at hv
        cases hv
      have hlarge : (∃ q', some q = some q' ∧ 2 ^ 64 ≤ q') ↔ 2 ^ 64 ≤ towardZero q := by
        rw [le_towardZero_iff (by decide)]
        simp only [Option.some.injEq, exists_eq_left']
        norm_num
      have hgiven : (∃ q', some q = some q' ∧ towardZero q' = n) ↔ towardZero q = n := by simp
      rw [component_of_rational? hconstant hv, hgiven, or_iff_right hfinite, hlarge]
      omega

lemma component32_eq_ok_iff : component32 d e = .ok n ↔ 1 ≤ n ∧ n < 2 ^ 32 ∧ Gives e n := by
  have hsize : UInt32.size = 2 ^ 32 := rfl
  simp only [component32, bind_eq_ok_iff, component_eq_ok_iff, hsize]
  constructor
  · rintro ⟨m, hm, h⟩
    split at h
    · obtain rfl := Except.ok.inj h
      rcases hm with ⟨hpos, -, hgives⟩ | ⟨rfl, -⟩
      · exact ⟨hpos, ‹_›, hgives⟩
      · omega
    · exact nomatch h
  · rintro ⟨hpos, hlt, hgives⟩
    exact ⟨n, Or.inl ⟨hpos, by omega, hgives⟩, if_pos hlt⟩

lemma parse_of_triplet {c : Constants} {text : String} {t : Triplet} (h : Triplet.parse c text = .ok t)
    (s : OutputSize) : parse c text = .ok s ↔ component32 .width t.x = .ok s.width ∧
      component32 .height t.y = .ok s.height ∧ component .frames t.t = .ok s.frames := by
  simp only [parse, h, Except.mapError, bind_eq_ok_iff, Except.ok.injEq, exists_eq_left']
  constructor
  · rintro ⟨width, hwidth, height, hheight, frames, hframes, h⟩
    obtain rfl := Except.ok.inj h
    exact ⟨hwidth, hheight, hframes⟩
  · rintro ⟨hwidth, hheight, hframes⟩
    exact ⟨_, hwidth, _, hheight, _, hframes, rfl⟩

theorem accepted_iff_values (c : Constants) (text : String) (s : OutputSize) :
    parse c text = .ok s ↔ ∃ t, Triplet.parse c text = .ok t ∧
      (1 ≤ s.width ∧ s.width < 2 ^ 32 ∧ Gives t.x s.width) ∧
      (1 ≤ s.height ∧ s.height < 2 ^ 32 ∧ Gives t.y s.height) ∧
      (1 ≤ s.frames ∧ s.frames < 2 ^ 64 ∧ Gives t.t s.frames ∨ s.frames = 2 ^ 64 - 1 ∧ Exceeds t.t) := by
  cases htriplet : Triplet.parse c text with
  | error e =>
    rw [parse, htriplet]
    constructor
    · exact fun h => nomatch h
    · rintro ⟨t, ht, -⟩
      exact nomatch ht
  | ok t =>
    rw [parse_of_triplet htriplet, component32_eq_ok_iff, component32_eq_ok_iff, component_eq_ok_iff]
    simp only [Except.ok.injEq, exists_eq_left']

theorem frames_of_infinity :
    parse ⟨1, 1, 1⟩ "[1;1;1/0]" = .ok ⟨1, 1, 2 ^ 64 - 1⟩ ∧
    ∃ t v, Triplet.parse ⟨1, 1, 1⟩ "[1;1;1/0]" = .ok t ∧ t.t.constant = .ok v ∧ rational? v = none := by
  have hvalue : (Triplet.parse ⟨1, 1, 1⟩ "[1;1;1/0]").toOption.map (·.t.constant.toOption.map rational?) =
      some (some none) := by decide +kernel
  obtain ⟨t, ht, hconstant⟩ := Option.map_eq_some_iff.mp hvalue
  obtain ⟨v, hv, hnone⟩ := Option.map_eq_some_iff.mp hconstant
  exact ⟨toOption_eq_some.mp (by decide +kernel), t, v, toOption_eq_some.mp ht, toOption_eq_some.mp hv, hnone⟩

end VideoRemap.OutputSize

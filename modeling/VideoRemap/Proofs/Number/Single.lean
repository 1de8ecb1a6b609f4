import VideoRemap.Number.Notation
import VideoRemap.Proofs.Number.Nearest

namespace VideoRemap.Number

open Float.Model Float.Model.UnpackedFloat

inductive Fields (s : Sign) : Nat → Nat → UnpackedFloat → Prop
  | infinity : Fields s 255 0 (.infinity s)
  | notANumber {f} : 0 < f → Fields s 255 f .notANumber
  | zero : Fields s 0 0 (.zero s)
  | tiny {f} (hpos : 0 < f) : f < 2 ^ 23 → Fields s 0 f (.finite s f (-149) hpos)
  | normal {b f} (hpos : 0 < 2 ^ 23 + f) : 0 < b → b < 255 → f < 2 ^ 23 →
      Fields s b f (.finite s (2 ^ 23 + f) (b - 150) hpos)

section

variable {s : Sign} {b f : Nat} {u v : UnpackedFloat} {m : Nat} {e : Int}

lemma Fields.unique (h : Fields s b f u) (h' : Fields s b f v) : u = v := by
  cases h <;> cases h' <;> first | rfl | omega

lemma packComponents_fields (w : BitVec 32) :
    packComponents Format.binary32 (.ofBitVec (@unpackSign Format.binary32 w))
      (@unpackExponent Format.binary32 w) (@unpackMantissa Format.binary32 w) = w := by
  have hsign : (Sign.ofBitVec (@unpackSign Format.binary32 w)).toBitVec = @unpackSign Format.binary32 w := by
    rcases BitVec.eq_zero_or_eq_one (@unpackSign Format.binary32 w) with h | h
    all_goals
      rw [h]
      rfl
  rw [packComponents, hsign]
  simp only [unpackSign, unpackExponent, unpackMantissa, BitVec.extractLsb]
  ext i hi
  grind

lemma fields_packComponents (s : Sign) (b : BitVec 8) (f : BitVec 23) : Fields s b.toNat f.toNat
    (UnpackedFloat.unpack Format.binary32 (packComponents Format.binary32 s b f)) := by
  have hlt := f.isLt
  have hpos {n : Nat} {v : BitVec n} (h : v ≠ 0#n) : 0 < v.toNat :=
    Nat.pos_of_ne_zero fun hzero => h (BitVec.eq_of_toNat_eq (by rw [hzero, BitVec.toNat_zero]))
  have hsign : Sign.ofBitVec s.toBitVec = s := by cases s <;> rfl
  have hmantissa : (1#1 ++ f).toNat = 2 ^ 23 + f.toNat := by
    rw [BitVec.toNat_append, ← Nat.shiftLeft_add_eq_or_of_lt f.isLt]
    rfl
  simp only [UnpackedFloat.unpack, unpackSign_packComponents, unpackExponent_packComponents,
    unpackMantissa_packComponents, hsign, hmantissa]
  by_cases hones : b = -1#8
  · subst hones
    by_cases hzero : f = 0#23
    · subst hzero
      exact .infinity
    · rw [if_pos rfl, if_neg hzero]
      exact .notANumber (hpos hzero)
  rw [if_neg hones]
  by_cases htiny : b = 0#8
  · subst htiny
    rw [if_pos rfl]
    by_cases hzero : f = 0#23
    · subst hzero
      exact .zero
    · rw [dif_neg hzero]
      exact .tiny _ hlt
  · rw [if_neg htiny]
    have hless : b.toNat < 255 := by
      have hne : b.toNat ≠ 255 := fun h => hones (BitVec.eq_of_toNat_eq h)
      omega
    exact .normal _ (hpos htiny) hless hlt

lemma unpack_fields (w : BitVec 32) :
    Fields (.ofBitVec (@unpackSign Format.binary32 w)) (@unpackExponent Format.binary32 w).toNat
      (@unpackMantissa Format.binary32 w).toNat (UnpackedFloat.unpack Format.binary32 w) := by
  conv => arg 4; rw [← packComponents_fields w]
  exact fields_packComponents _ _ _

lemma Fields.canonical {s' : Sign} {hm : 0 < m} (h : Fields s b f (.finite s' m e hm)) : Canonical m e ∧ e ≤ 104 := by
  cases h with
  | tiny _ hlt => exact ⟨⟨hm, by omega, by omega, Or.inr rfl⟩, by omega⟩
  | normal _ hpos hless hlt => exact ⟨⟨hm, by omega, by omega, Or.inl (by omega)⟩, by omega⟩

lemma Canonical.fields (h : Canonical m e) (he : e ≤ 104) (s : Sign) :
    ∃ b < 2 ^ 8, ∃ f < 2 ^ 23, Fields s b f (.finite s m e h.pos) := by
  obtain ⟨hpos, hlt, hleast, hnormal⟩ := h
  rcases Nat.lt_or_ge m (2 ^ 23) with hsmall | hlarge
  · obtain rfl := hnormal.resolve_left (by omega)
    exact ⟨0, by decide, m, hsmall, .tiny hpos hsmall⟩
  · obtain ⟨f, rfl⟩ := Nat.exists_eq_add_of_le hlarge
    obtain ⟨b, rfl⟩ : ∃ b : ℕ, e = b - 150 := ⟨(e + 150).toNat, by omega⟩
    exact ⟨b, by omega, f, by omega, .normal hpos (by omega) (by omega) (by omega)⟩

lemma Fields.pack_eq (h : Fields s b f u) (hu : u ≠ .notANumber) : UnpackedFloat.pack Format.binary32 u =
    packComponents Format.binary32 s (BitVec.ofNat 8 b) (BitVec.ofNat 23 f) := by
  cases h with
  | infinity => rfl
  | notANumber => exact absurd rfl hu
  | zero => rfl
  | tiny hpos hlt =>
    have hlog : f.log2 < 23 := (Nat.log2_lt hpos.ne').mpr hlt
    have hsubnormal : ¬ f.log2 + 1 = Format.binary32.mantissaBits := by
      change ¬ f.log2 + 1 = 24
      omega
    simp only [UnpackedFloat.pack, hsubnormal, if_false]
    exact if_neg (by decide)
  | normal hpos hlow hless hlt =>
    have hlog : (2 ^ 23 + f).log2 = 23 :=
      (Nat.log2_eq_iff hpos.ne').mpr ⟨Nat.le_add_right _ _, by omega⟩
    have hbiased : ((b : Int) - 150 + (Format.binary32.exponentBias : Nat) +
        (Format.binary32.mantissaBitsWithoutImplicit : Nat)).toNat = b := by
      simp only [Format.exponentBias]
      omega
    have hmantissa : BitVec.ofNat 23 (2 ^ 23 + f) = BitVec.ofNat 23 f :=
      BitVec.eq_of_toNat_eq (by simp)
    simp only [UnpackedFloat.pack, hbiased, hlog, Format.mantissaBits, hmantissa, if_true]
    exact if_neg (by omega)

lemma unpack_pack_single (h : Fields s b f u) (hu : u ≠ .notANumber) (hb : b < 2 ^ 8) (hf : f < 2 ^ 23) :
    (Float32.Model.pack u).unpack = u := by
  have hpack := fields_packComponents s (BitVec.ofNat 8 b) (BitVec.ofNat 23 f)
  rw [← h.pack_eq hu, BitVec.toNat_ofNat, BitVec.toNat_ofNat, Nat.mod_eq_of_lt hb, Nat.mod_eq_of_lt hf] at hpack
  exact hpack.unique h

lemma pack_unpack (x : Float32) (hx : x.isNaN = false) : Float32.Model.pack x.toModel.unpack = x.toModel := by
  have hu : x.toModel.unpack ≠ .notANumber := fun h => by
    change x.toModel.unpack.isNaN = false at hx
    rw [h] at hx
    exact nomatch hx
  have hpack := (unpack_fields x.toBits.toBitVec).pack_eq hu
  rw [BitVec.ofNat_toNat, BitVec.ofNat_toNat, BitVec.setWidth_eq, BitVec.setWidth_eq,
    packComponents_fields] at hpack
  have hbits : (Float32.Model.pack x.toModel.unpack).toBits = x.toModel.toBits :=
    congrArg UInt32.ofBitVec hpack
  generalize Float32.Model.pack x.toModel.unpack = packed at hbits ⊢
  cases packed
  obtain ⟨⟨bits, valid⟩⟩ := x
  cases hbits
  rfl

end

section

variable {n k m : Nat} {e : Int}

lemma canonical_whole (hpos : 0 < n) (hlt : n < 2 ^ 24) :
    Canonical (n * 2 ^ (23 - n.log2)) (-(23 - n.log2 : Nat)) := by
  have hlog : n.log2 < 24 := (Nat.log2_lt hpos.ne').mpr hlt
  have hmantissa := log2_mul_two_pow hpos (23 - n.log2)
  have hm : 0 < n * 2 ^ (23 - n.log2) := Nat.mul_pos hpos (Nat.two_pow_pos _)
  refine ⟨hm, (Nat.log2_lt hm.ne').mp (by omega), by omega, Or.inl ?_⟩
  exact (Nat.le_log2 hm.ne').mp (by omega)

lemma unpack_toFloat32 (hpos : 0 < n) (hlt : n < 2 ^ 24) : ∃ m e hm,
    n.toUInt64.toFloat32.toModel.unpack = .finite .positive m e hm ∧ (m : ℚ) * 2 ^ e = n := by
  have hcanonical := canonical_whole hpos hlt
  have hvalue : ((n * 2 ^ (23 - n.log2) : ℕ) : ℚ) * 2 ^ (-(23 - n.log2 : Nat) : ℤ) = n := by
    rw [zpow_neg, zpow_natCast]
    push_cast
    field_simp
  have hround : UnpackedFloat.ofUInt64 Format.binary32 n.toUInt64 =
      .finite .positive (n * 2 ^ (23 - n.log2)) (-(23 - n.log2 : Nat)) hcanonical.pos := by
    have htoNat : n.toUInt64.toNat = n := by
      simp only [Nat.toUInt64_eq, UInt64.toNat_ofNat']
      omega
    have hcompare : compare (n : Int) 0 = .gt := by
      rw [Int.compare_eq_gt]
      omega
    have hself := RoundsTo.self (n * 2 ^ (23 - n.log2)) (-(23 - n.log2 : Nat))
    rw [hvalue] at hself
    simp only [UnpackedFloat.ofUInt64, UnpackedFloat.ofNat, UnpackedFloat.ofInt, UnpackedFloat.normalize,
      htoNat, hcompare, Int.toNat_natCast]
    exact round_eq_finite hpos hcanonical (by rwa [zpow_zero, mul_one]) _
  obtain ⟨b, hb, f, hf, hfields⟩ := hcanonical.fields (by omega) .positive
  refine ⟨_, _, hcanonical.pos, ?_, hvalue⟩
  change (Float32.Model.pack (UnpackedFloat.ofUInt64 Format.binary32 n.toUInt64)).unpack = _
  rw [hround]
  exact unpack_pack_single hfields (by simp) hb hf

def isPowerOfTen (k : Nat) : UnpackedFloat → Bool
  | .finite .positive m e _ => m * 2 ^ e.toNat == 10 ^ k * 2 ^ (-e).toNat
  | _ => false

lemma unpack_powerOfTen (hk : k < Float32.exactlyRepresentablePowersOfTen.size) : ∃ m e hm,
    Float32.exactlyRepresentablePowersOfTen[k].toModel.unpack = .finite .positive m e hm ∧
      (m : ℚ) * 2 ^ e = 10 ^ k := by
  have htable : ∀ i : Fin 11, isPowerOfTen i Float32.exactlyRepresentablePowersOfTen[i].toModel.unpack = true := by
    decide +kernel
  have hentry := htable ⟨k, hk⟩
  simp only [Fin.getElem_fin] at hentry
  unfold isPowerOfTen at hentry
  split at hentry
  case h_1 m e hm hunpack =>
    refine ⟨m, e, hm, hunpack, ?_⟩
    have hscaled : (m : ℚ) * 2 ^ e.toNat = 10 ^ k * 2 ^ (-e).toNat := by exact_mod_cast beq_iff_eq.mp hentry
    rw [← zpow_natCast, ← zpow_natCast (2 : ℚ) (-e).toNat] at hscaled
    have he : e = e.toNat - (-e).toNat := by omega
    rw [he, zpow_sub₀ two_ne_zero, ← mul_div_assoc, hscaled, mul_div_cancel_right₀ _ (by positivity)]
  case h_2 => cases hentry

lemma lt_of_large_exponent (h : 256 + n.log2 < k) : (n : ℚ) / 10 ^ k < 2 ^ (-150 : ℤ) := by
  have hn : (n : ℚ) < 2 ^ (n.log2 + 1) := by exact_mod_cast Nat.lt_log2_self
  have hk : (2 : ℚ) ^ k ≤ 10 ^ k := pow_le_pow_left₀ (by norm_num) (by norm_num) k
  calc (n : ℚ) / 10 ^ k ≤ n / 2 ^ k := div_le_div_of_nonneg_left (by positivity) (by positivity) hk
    _ < 2 ^ (n.log2 + 1) / 2 ^ k := div_lt_div_of_pos_right hn (by positivity)
    _ = 2 ^ ((n.log2 + 1 : ℕ) - k : ℤ) := by rw [zpow_sub₀ two_ne_zero, zpow_natCast, zpow_natCast]
    _ ≤ 2 ^ (-150 : ℤ) := zpow_le_zpow_right₀ one_le_two (by push_cast; omega)

lemma canonical_of_unpack {x : Float32} {s : Sign} {hm : 0 < m} (hx : x.toModel.unpack = .finite s m e hm) :
    Canonical m e ∧ e ≤ 104 := by
  have hfields := unpack_fields x.toBits.toBitVec
  rw [show UnpackedFloat.unpack Format.binary32 x.toBits.toBitVec = _ from hx] at hfields
  exact hfields.canonical

theorem ofScientific_eq {x : Float32} {hm : 0 < m} (hx : x.toModel.unpack = .finite .positive m e hm)
    (hk : 0 < k) (h : RoundsTo m e (n / 10 ^ k)) : Float32.ofScientific n true k = x := by
  have hcanonical := (canonical_of_unpack hx).1
  have hpacked : Float32.ofModel (.pack (.finite .positive m e hm)) = x := by
    have hnumber : x.isNaN = false := by
      change x.toModel.unpack.isNaN = false
      rw [hx]
      rfl
    rw [← hx, pack_unpack x hnumber]
  have hlow := h.least_le hcanonical
  have hpos : 0 < n := Nat.pos_of_ne_zero fun hzero => by
    rw [hzero, Nat.cast_zero, zero_div] at hlow
    exact absurd hlow (by norm_num)
  rw [← hpacked]
  unfold Float32.ofScientific
  split
  case isTrue hfast =>
    -- Both operands are exact, so that the division is the only step that rounds.
    obtain ⟨a, f, ha, hunpack, hvalue⟩ := unpack_toFloat32 (n := n) hpos (by omega)
    obtain ⟨b, g, hb, hunpack', hvalue'⟩ := unpack_powerOfTen (k := k) (Nat.lt_succ_of_le hfast.2)
    rw [← hvalue, ← hvalue'] at h
    have hdiv := div_eq_finite ha hb hcanonical h .positive .positive
    rw [← hunpack, ← hunpack'] at hdiv
    exact congrArg (fun u => Float32.ofModel (.pack u)) hdiv
  case isFalse =>
    -- From there on zero is given without a division.
    have hsmall : k ≤ 256 + n.log2 := by
      by_contra hlarge
      exact absurd (lt_of_large_exponent (Nat.lt_of_not_le hlarge)) (not_lt.mpr hlow)
    have hnegative : Int.negOfNat k = -(k : ℤ) := Int.negOfNat_eq
    have hexponent : (-Int.negOfNat k).toNat = k := by omega
    simp only [if_true, Float32.Model.ofScientific, UnpackedFloat.ofScientific, dif_neg hpos.ne', hexponent]
    rw [if_neg (by omega), if_neg (by push_cast; omega), if_neg (by omega)]
    rw [div_eq_finite _ _ hcanonical (by simpa using h)]
    rfl

end

def Unsigned : UnpackedFloat → Prop
  | .infinity s => s = .positive
  | .zero s => s = .positive
  | .finite s _ _ _ => s = .positive
  | .notANumber => True

section

variable {u v : UnpackedFloat}

lemma Fields.unsigned {b f : Nat} (h : Fields .positive b f u) : Unsigned u := by
  cases h <;> trivial

lemma Fields.sign_eq {s : Sign} {b f : Nat} (h : Fields s b f u) (hu : Unsigned u) (hnumber : u.isNaN = false) :
    s = .positive := by
  cases h with
  | notANumber => cases hnumber
  | _ => exact hu

lemma Unsigned.unpack_pack (h : Unsigned u) : Unsigned (Float32.Model.pack u).unpack := by
  have hpack : ∃ b f, UnpackedFloat.pack Format.binary32 u = packComponents Format.binary32 .positive b f := by
    cases u with
    | notANumber => exact ⟨_, _, rfl⟩
    | infinity s =>
      cases h
      exact ⟨_, _, rfl⟩
    | zero s =>
      cases h
      exact ⟨_, _, rfl⟩
    | finite s m e hm =>
      cases h
      simp only [UnpackedFloat.pack]
      split_ifs <;> exact ⟨_, _, rfl⟩
  obtain ⟨b, f, hpack⟩ := hpack
  have hfields := fields_packComponents .positive b f
  rw [← hpack] at hfields
  exact hfields.unsigned

lemma unsigned_roundWithAccuracy (q : Nat) (e : Int) (acc : Accuracy) :
    Unsigned (roundWithAccuracy Format.binary32 .positive q e acc) := by
  unfold roundWithAccuracy
  simp only
  split <;> rfl

lemma Unsigned.div (hu : Unsigned u) (hv : Unsigned v) : Unsigned (UnpackedFloat.div Format.binary32 u v) := by
  cases u <;> cases v <;> cases hu <;> cases hv
  case finite.finite => exact unsigned_roundWithAccuracy _ _ _
  all_goals trivial

lemma unsigned_scientific (n : Nat) (e : Int) : Unsigned (UnpackedFloat.ofScientific Format.binary32 n e) := by
  unfold UnpackedFloat.ofScientific
  split_ifs
  · rfl
  · rfl
  · rfl
  · exact unsigned_roundWithAccuracy _ _ _
  · exact unsigned_roundWithAccuracy _ _ _

theorem unsigned_ofScientific (n k : Nat) : Unsigned (Float32.ofScientific n true k).toModel.unpack := by
  unfold Float32.ofScientific
  split
  case isTrue hfast =>
    have hdividend : Unsigned n.toUInt64.toFloat32.toModel.unpack := by
      rcases Nat.eq_zero_or_pos n with rfl | hpos
      · rfl
      · obtain ⟨m, e, hm, hunpack, -⟩ := unpack_toFloat32 hpos (by omega)
        rw [hunpack]
        rfl
    obtain ⟨m, e, hm, hunpack, -⟩ := unpack_powerOfTen (k := k) (Nat.lt_succ_of_le hfast.2)
    have hquotient := hdividend.div (v := .finite .positive m e hm) rfl
    rw [← hunpack] at hquotient
    exact hquotient.unpack_pack
  case isFalse => exact (unsigned_scientific n _).unpack_pack

end

end VideoRemap.Number

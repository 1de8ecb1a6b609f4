import VideoRemap.Proofs.Number.Single

/-!
The decimal that is written for a single-precision number lies in the interval that is read as this
number. Which power of ten leads it is decided by the number alone at the two powers where the notation
changes.
-/

namespace VideoRemap.Number

open Float.Model Float.Model.UnpackedFloat

def Decimal.value (d : Decimal) : ℚ := d.digits * 10 ^ d.exp

def Binary.single (m : Nat) (e : Int) : Binary := ⟨m, e, decide (m = 2 ^ 23 ∧ -149 < e)⟩

section

variable {a n m m' : Nat} {i j e e' : Int} {d : Decimal} {x : Binary}

lemma zpow_mul_pow {b : ℚ} (hb : b ≠ 0) (i : Int) : b ^ i * b ^ (-i).toNat = b ^ i.toNat := by
  rw [← zpow_natCast, ← zpow_natCast, ← zpow_add₀ hb]
  congr 1
  omega

lemma compareScaled_eq (a : Nat) (i : Int) (n : Nat) (j : Int) :
    compareScaled a i n j = compare ((a : ℚ) * 10 ^ i) (n * 2 ^ j) := by
  have hten := zpow_mul_pow (show (10 : ℚ) ≠ 0 by norm_num) i
  have htwo := zpow_mul_pow (show (2 : ℚ) ≠ 0 by norm_num) j
  have hpos : (0 : ℚ) < 10 ^ (-i).toNat * 2 ^ (-j).toNat := by positivity
  have hleft : (((a * 10 ^ i.toNat) <<< (-j).toNat : ℕ) : ℚ) =
      a * 10 ^ i * (10 ^ (-i).toNat * 2 ^ (-j).toNat) := by
    rw [Nat.shiftLeft_eq]
    push_cast
    rw [← hten]
    ring
  have hright : (((n * 10 ^ (-i).toNat) <<< j.toNat : ℕ) : ℚ) =
      n * 2 ^ j * (10 ^ (-i).toNat * 2 ^ (-j).toNat) := by
    rw [Nat.shiftLeft_eq]
    push_cast
    rw [← htwo]
    ring
  calc compareScaled a i n j
      = compare ((a * 10 ^ i.toNat) <<< (-j).toNat) ((n * 10 ^ (-i).toNat) <<< j.toNat) := rfl
    _ = cmp (((a * 10 ^ i.toNat) <<< (-j).toNat : ℕ) : ℚ) ((n * 10 ^ (-i).toNat) <<< j.toNat : ℕ) := by
      rw [Nat.strictMono_cast.cmp_map_eq, cmp_eq_compare]
    _ = compare ((a : ℚ) * 10 ^ i) (n * 2 ^ j) := by
      rw [hleft, hright, cmp_mul_pos_right hpos, cmp_eq_compare]

lemma zpow_sub_two (e : Int) : (2 : ℚ) ^ (e - 2) = 2 ^ e / 4 := by
  rw [zpow_sub₀ two_ne_zero]
  norm_num

lemma ends_single (hm : 0 < m) (e : Int) :
    ((Binary.single m e).ends.1 : ℚ) * 2 ^ (e - 2) = lowEnd m e ∧
      ((Binary.single m e).ends.2 : ℚ) * 2 ^ (e - 2) = highEnd m e := by
  have hcast {k : ℕ} (hk : k ≤ 4 * m) : ((4 * m - k : ℕ) : ℚ) = 4 * m - k := by
    push_cast [Nat.cast_sub hk]
    rfl
  rw [zpow_sub_two, lowEnd, highEnd]
  refine ⟨?_, ?_⟩
  · simp only [Binary.ends, Binary.single, decide_eq_true_eq]
    split
    · rw [hcast (by omega)]
      push_cast
      ring
    · rw [hcast (by omega)]
      push_cast
      ring
  · simp only [Binary.ends, Binary.single]
    push_cast
    ring

lemma roundsTo_of_identifiedBy (hm : 0 < m) (h : (Binary.single m e).identifiedBy d = true) :
    RoundsTo m e d.value := by
  obtain ⟨hlow, hhigh⟩ := ends_single hm e
  simp only [Binary.identifiedBy, compareScaled_eq] at h
  split at h
  case isTrue heven =>
    simp only [Bool.and_eq_true, bne_iff_ne, ne_eq, compare_lt_iff_lt, compare_gt_iff_gt, not_lt] at h
    refine ⟨?_, ?_, Or.inl (beq_iff_eq.mp heven)⟩
    · exact hlow ▸ h.1
    · exact hhigh ▸ h.2
  case isFalse =>
    simp only [Bool.and_eq_true, beq_iff_eq, compare_lt_iff_lt, compare_gt_iff_gt] at h
    have hinside : lowEnd m e < d.value ∧ d.value < highEnd m e := ⟨hlow ▸ h.1, hhigh ▸ h.2⟩
    exact ⟨hinside.1.le, hinside.2.le, Or.inr hinside⟩

lemma identifiedBy_of_candidate {g : Int} (h : x.candidate g = some d) : x.identifiedBy d = true := by
  unfold Binary.candidate at h
  simp only at h
  split at h
  case h_1 hbelow habove =>
    split at h
    · obtain rfl := Option.some.inj h
      exact (Bool.and_eq_true_iff.mp hbelow).2
    · obtain rfl := Option.some.inj h
      exact habove
  case h_2 hbelow _ =>
    obtain rfl := Option.some.inj h
    exact (Bool.and_eq_true_iff.mp hbelow).2
  case h_3 habove =>
    obtain rfl := Option.some.inj h
    exact habove
  case h_4 => cases h

lemma value_exact (m : Nat) (e : Int) : (Binary.single m e).exact.value = m * 2 ^ e := by
  unfold Binary.exact Decimal.value
  split
  case isTrue he =>
    change 0 ≤ e at he
    obtain ⟨k, rfl⟩ := Int.eq_ofNat_of_zero_le he
    simp [Binary.single, Nat.shiftLeft_eq]
  case isFalse he =>
    change ¬ 0 ≤ e at he
    obtain ⟨k, rfl⟩ : ∃ k : ℕ, e = -k := ⟨(-e).toNat, by omega⟩
    have hten : (10 : ℚ) ^ k = 2 ^ k * 5 ^ k := by rw [← mul_pow]; norm_num
    simp only [Binary.single, neg_neg, Int.toNat_natCast, zpow_neg, zpow_natCast, hten]
    rw [show Nat.pow 5 k = 5 ^ k from rfl]
    push_cast
    field_simp

lemma roundsTo_shortest (hm : 0 < m) (e : Int) : RoundsTo m e (Binary.single m e).shortest.value := by
  unfold Binary.shortest
  cases hfound : (List.range 20).findSome? fun i : Nat =>
      (Binary.single m e).candidate ((Binary.single m e).leading - i) with
  | none =>
    rw [Option.getD_none, value_exact]
    exact .self m e
  | some d =>
    obtain ⟨i, -, hcandidate⟩ := List.exists_of_findSome?_eq_some hfound
    exact roundsTo_of_identifiedBy hm (identifiedBy_of_candidate hcandidate)

end

section

variable {x : Float32} {m : Nat} {e : Int} {hm : 0 < m}

lemma toNat_exponent (w : UInt32) :
    ((w >>> 23) &&& 0xFF).toNat = (@unpackExponent Format.binary32 w.toBitVec).toNat := by
  rw [UInt32.toNat_and, UInt32.toNat_shiftRight]
  simp [unpackExponent, Nat.shiftRight_eq_div_pow]
  exact Nat.and_two_pow_sub_one_eq_mod _ 8

lemma toNat_mantissa (w : UInt32) :
    (w &&& 0x7FFFFF).toNat = (@unpackMantissa Format.binary32 w.toBitVec).toNat := by
  rw [UInt32.toNat_and]
  simp [unpackMantissa]
  exact Nat.and_two_pow_sub_one_eq_mod _ 23

lemma sign_bit_eq_false {w : UInt32} (h : Sign.ofBitVec (@unpackSign Format.binary32 w.toBitVec) = .positive) :
    (w &&& 0x80000000 != 0) = false := by
  have hbit : @unpackSign Format.binary32 w.toBitVec = BitVec.ofNat 1 (w.toNat / 2 ^ 31) := by
    simp [unpackSign, BitVec.toNat_eq, Nat.shiftRight_eq_div_pow]
  have hword := w.toNat_lt
  have hlt : w.toNat < 2 ^ 31 := by
    by_contra hge
    rw [hbit, show w.toNat / 2 ^ 31 = 1 by omega] at h
    exact nomatch h
  have hclear : w &&& 0x80000000 = 0 := by
    refine UInt32.toNat_inj.mp ?_
    rw [UInt32.toNat_and, show (0x80000000 : UInt32).toNat = 2 ^ 31 from rfl, Nat.and_two_pow,
      Nat.testBit_lt_two_pow hlt]
    rfl
  rw [hclear]
  rfl

lemma ofSingle_eq (hx : x.toModel.unpack = .finite .positive m e hm) : Binary.ofSingle x = .single m e := by
  have hfields := unpack_fields x.toBits.toBitVec
  rw [show UnpackedFloat.unpack Format.binary32 x.toBits.toBitVec = _ from hx, ← toNat_exponent,
    ← toNat_mantissa] at hfields
  unfold Binary.ofSingle
  generalize Sign.ofBitVec (@unpackSign Format.binary32 x.toBits.toBitVec) = s at hfields
  generalize ((x.toBits >>> 23) &&& 0xFF).toNat = b at hfields ⊢
  generalize (x.toBits &&& 0x7FFFFF).toNat = f at hfields ⊢
  cases hfields with
  | tiny hpos hlt => simp [Binary.single]
  | normal hpos hlow hless hlt =>
    have hnarrow : (f == 0 && decide (1 < b)) = decide (2 ^ 23 + f = 2 ^ 23 ∧ -149 < (b : ℤ) - 150) := by
      rw [Bool.eq_iff_iff]
      simp only [Bool.and_eq_true, beq_iff_eq, decide_eq_true_eq]
      omega
    simp only [beq_iff_eq, if_neg hlow.ne', hnarrow, Binary.single]
    rfl

end

section

variable {d : Decimal} {m : Nat} {e : Int}

def Decimal.leading (d : Decimal) : Int := d.exp + ((Nat.toDigits 10 d.digits).length - 1 : Nat)

lemma value_bounds (hd : 0 < d.digits) : 10 ^ d.leading ≤ d.value ∧ d.value < 10 ^ (d.leading + 1) := by
  have hten : (10 : ℚ) ≠ 0 := by norm_num
  have hpos : (0 : ℚ) < 10 ^ d.exp := by positivity
  have hlength : 0 < (Nat.toDigits 10 d.digits).length := Nat.length_toDigits_pos
  have hlow : 10 ^ ((Nat.toDigits 10 d.digits).length - 1) ≤ d.digits := by
    rcases Nat.eq_zero_or_pos ((Nat.toDigits 10 d.digits).length - 1) with hone | hmore
    · rw [hone]
      exact hd
    · by_contra hlt
      have hshort := (Nat.length_toDigits_le_iff (by decide) hmore).mpr (Nat.lt_of_not_le hlt)
      omega
  have hhigh := (Nat.length_toDigits_le_iff (b := 10) (by decide) hlength).mp (Nat.le_refl _)
  have hlow' : (10 : ℚ) ^ ((Nat.toDigits 10 d.digits).length - 1) ≤ d.digits := by exact_mod_cast hlow
  have hhigh' : (d.digits : ℚ) < 10 ^ (Nat.toDigits 10 d.digits).length := by exact_mod_cast hhigh
  unfold Decimal.leading Decimal.value
  generalize (Nat.toDigits 10 d.digits).length = n at *
  rw [add_assoc, show (((n - 1 : ℕ) : ℤ) + 1) = (n : ℤ) by omega, zpow_add₀ hten, zpow_add₀ hten, zpow_natCast,
    zpow_natCast, mul_comm, mul_comm (10 ^ d.exp : ℚ)]
  exact ⟨mul_le_mul_of_nonneg_right hlow' hpos.le, mul_lt_mul_of_pos_right hhigh' hpos⟩

lemma le_leading_iff (hd : 0 < d.digits) (g : Int) : g ≤ d.leading ↔ 10 ^ g ≤ d.value := by
  obtain ⟨hlow, hhigh⟩ := value_bounds hd
  constructor
  · exact fun h => (zpow_le_zpow_right₀ (by norm_num) h).trans hlow
  · intro h
    have hlt := (zpow_lt_zpow_iff_right₀ (show (1 : ℚ) < 10 by norm_num)).mp (h.trans_lt hhigh)
    omega

lemma digits_pos (hc : Canonical m e) : 0 < (Binary.single m e).shortest.digits := by
  have hlow := (roundsTo_shortest hc.pos e).least_le hc
  refine Nat.pos_of_ne_zero fun hzero => ?_
  rw [Decimal.value, hzero, Nat.cast_zero, zero_mul] at hlow
  exact absurd hlow (by norm_num)

lemma leading_bounds (hc : Canonical m e) (he : e ≤ 104) :
    -46 ≤ (Binary.single m e).shortest.leading ∧ (Binary.single m e).shortest.leading < 39 := by
  have hround := roundsTo_shortest hc.pos e
  have hlow := hround.least_le hc
  have hhigh : (Binary.single m e).shortest.value < 2 ^ (128 : ℤ) :=
    (hround.lt_two_zpow hc).trans_le (zpow_le_zpow_right₀ one_le_two (by omega))
  rw [← not_le, le_leading_iff (digits_pos hc), le_leading_iff (digits_pos hc), not_le]
  exact ⟨le_trans (by norm_num) hlow, hhigh.trans (by norm_num)⟩

lemma le_leading_shortest_iff {b : Nat} {f g : Int} (hb : Canonical b f) (hlow : lowEnd b f < 10 ^ g)
    (hhigh : 10 ^ g < highEnd b f) (hself : g ≤ (Binary.single b f).shortest.leading) (hc : Canonical m e) :
    g ≤ (Binary.single m e).shortest.leading ↔ f < e ∨ f = e ∧ b ≤ m := by
  by_cases heq : f = e ∧ b = m
  · obtain ⟨rfl, rfl⟩ := heq
    simp [hself]
  rw [le_leading_iff (digits_pos hc)]
  have hround := roundsTo_shortest hc.pos e
  -- The power of ten is inside the interval of one number, so that all others lie on one side of it.
  by_cases habove : f < e ∨ f = e ∧ b < m
  · refine iff_of_true ?_ (habove.imp_right fun h => ⟨h.1, h.2.le⟩)
    exact hhigh.le.trans ((hb.highEnd_le_lowEnd hc habove).trans hround.low)
  · refine iff_of_false (not_le.mpr ?_) (by omega)
    exact (hround.high.trans (hc.highEnd_le_lowEnd hb (by omega))).trans_lt hlow

end

section

variable {x y : Float32} {m m' : Nat} {e e' : Int} {hm : 0 < m} {hm' : 0 < m'}

lemma le_iff_of_unpack (hx : x.toModel.unpack = .finite .positive m e hm)
    (hy : y.toModel.unpack = .finite .positive m' e' hm') : x ≤ y ↔ e < e' ∨ e = e' ∧ m ≤ m' := by
  change decide (x.toModel ≤ y.toModel) = true ↔ _
  rw [decide_eq_true_iff]
  change (x.toModel.unpack.compare y.toModel.unpack).any (·.isLE) = true ↔ _
  rw [hx, hy, UnpackedFloat.compare, Option.any_some, Ordering.isLE_iff_ne_gt, Ordering.then_eq_gt,
    Int.compare_eq_gt, Int.compare_eq_eq, Nat.compare_eq_gt]
  omega

lemma lt_iff_of_unpack (hx : x.toModel.unpack = .finite .positive m e hm)
    (hy : y.toModel.unpack = .finite .positive m' e' hm') : x < y ↔ e < e' ∨ e = e' ∧ m < m' := by
  change decide (x.toModel < y.toModel) = true ↔ _
  rw [decide_eq_true_iff]
  change (x.toModel.unpack.compare y.toModel.unpack == some .lt) = true ↔ _
  rw [hx, hy, UnpackedFloat.compare, beq_iff_eq, Option.some.injEq, Ordering.then_eq_lt, Int.compare_eq_lt,
    Int.compare_eq_eq, Nat.compare_eq_lt]

lemma positional_iff (hx : x.toModel.unpack = .finite .positive m e hm) :
    -4 ≤ (Binary.single m e).shortest.leading ∧ (Binary.single m e).shortest.leading ≤ 15 ↔
      0.0001 ≤ x ∧ x < 1e16 := by
  have hleast : (0.0001 : Float32).toModel.unpack = .finite .positive 13743895 (-37) (by decide) := rfl
  have hlimit : (1e16 : Float32).toModel.unpack = .finite .positive 9313226 30 (by decide) := rfl
  have hc := (canonical_of_unpack hx).1
  have hlow := le_leading_shortest_iff (canonical_of_unpack hleast).1 (g := -4) (by norm_num [lowEnd])
    (by norm_num [highEnd]) (by decide +kernel) hc
  have hhigh := le_leading_shortest_iff (canonical_of_unpack hlimit).1 (g := 16) (by norm_num [lowEnd])
    (by norm_num [highEnd]) (by decide +kernel) hc
  rw [le_iff_of_unpack hleast hx, lt_iff_of_unpack hx hlimit]
  omega

lemma treeNotation_decimalText (d : Decimal) : treeNotation.decimalText d =
    if -4 ≤ d.leading ∧ d.leading ≤ 15 then treeNotation.positionalText d else exponentText d := rfl

lemma sign_bit_of_unsigned (hx : Unsigned x.toModel.unpack) (hnumber : x.isNaN = false) :
    (x.toBits &&& 0x80000000 != 0) = false :=
  sign_bit_eq_false ((unpack_fields x.toBits.toBitVec).sign_eq hx hnumber)

lemma single_zero (hx : x.toModel.unpack = .zero .positive) (s : Style) : s.single x = s.zeroText := by
  have hnumber : x.isNaN = false := congrArg UnpackedFloat.isNaN hx
  have hfinite : x.isInf = false := congrArg UnpackedFloat.isInf hx
  have hzero : (x == 0) = true := congrArg (fun u => u.beq (0 : Float32).toModel.unpack) hx
  have hsign := sign_bit_of_unsigned (show Unsigned x.toModel.unpack by rw [hx]; rfl) hnumber
  simp only [Style.single, hnumber, hfinite, hzero, hsign, signed, if_true, Bool.false_eq_true, if_false]

lemma single_finite (hx : x.toModel.unpack = .finite .positive m e hm) (s : Style) :
    s.single x = s.decimalText (Binary.single m e).shortest := by
  have hnumber : x.isNaN = false := congrArg UnpackedFloat.isNaN hx
  have hfinite : x.isInf = false := congrArg UnpackedFloat.isInf hx
  have hzero : (x == 0) = false := congrArg (fun u => u.beq (0 : Float32).toModel.unpack) hx
  have hsign := sign_bit_of_unsigned (show Unsigned x.toModel.unpack by rw [hx]; rfl) hnumber
  simp only [Style.single, hnumber, hfinite, hzero, hsign, signed, ofSingle_eq hx, Bool.false_eq_true, if_false]

end

end VideoRemap.Number

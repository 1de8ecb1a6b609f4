import VideoRemap.Proofs.Expr.Text
import VideoRemap.Proofs.Number.Shortest

/-!
Decimals written and read back. A number that was read from digits with a point is written with the
fewest digits that identify it, and these are read as the same number; unless the notation has an
exponent, which the lexer takes for a letter.
-/

namespace VideoRemap

open Number Float.Model Float.Model.UnpackedFloat

section

variable {cs whole places : List Char} {ls : List Lexeme} {v : Float32}

structure AreDigits (cs : List Char) : Prop where
  ne_nil : cs ≠ []
  digits : ∀ c ∈ cs, c.isDigit = true

lemma spells_point (hwhole : AreDigits whole) (hplaces : ∀ c ∈ places, c.isDigit = true) :
    Spells (whole ++ '.' :: places) [.number (.decimal
      (Float32.ofScientific (Nat.ofDigitChars 10 (whole ++ places) 0) true places.length))] := by
  obtain ⟨hne, hdigits⟩ := hwhole
  have hfront : Digits.ofFront (whole ++ '.' :: places) = ⟨whole, some places, []⟩ := by
    rw [Digits.ofFront, List.takeWhile_append_of_pos hdigits, List.dropWhile_append_of_pos hdigits]
    have htake : ('.' :: places).takeWhile Char.isDigit = [] := rfl
    have hdrop : ('.' :: places).dropWhile Char.isDigit = '.' :: places := rfl
    rw [htake, hdrop, List.append_nil, Digits.before, List.takeWhile_eq_self_iff.mpr hplaces,
      List.dropWhile_eq_nil_iff.mpr hplaces]
  cases whole with
  | nil => exact absurd rfl hne
  | cons c whole =>
    have hliteral := congrArg Digits.literal? hfront
    have hrest := congrArg Digits.rest hfront
    exact .number (hdigits c List.mem_cons_self) hliteral (hrest ▸ .nil)

lemma Spells.exists_scientific (h : Spells cs ls) (hv : .number (.decimal v) ∈ ls) :
    ∃ n k, v = Float32.ofScientific n true k := by
  induction h with
  | nil => cases hv
  | blank _ _ ih => exact ih hv
  | @number c cs v' ls _ hliteral _ ih =>
    rcases List.mem_cons.mp hv with heq | htail
    · cases heq
      unfold Digits.literal? at hliteral
      split at hliteral
      case h_1 =>
        cases hliteral
        exact ⟨_, _, rfl⟩
      case h_2 =>
        simp only at hliteral
        split at hliteral <;> cases hliteral
    · exact ih htail
  | letter _ _ ih => exact ih ((List.mem_cons.mp hv).resolve_left (by simp))
  | mark _ _ ih => exact ih ((List.mem_cons.mp hv).resolve_left (by simp))

lemma areDigits_toDigits (n : Nat) : AreDigits (Nat.toDigits 10 n) :=
  ⟨Nat.toDigits_ne_nil, fun _ hc => Nat.isDigit_of_mem_toDigits (by decide) (by decide) hc⟩

lemma isDigit_of_mem_zeros {n : Nat} {c : Char} (h : c ∈ zeros n) : c.isDigit = true := by
  rw [List.eq_of_mem_replicate h]
  rfl

def IsPointed (cs : List Char) (q : ℚ) : Prop := ∃ whole places, cs = whole ++ '.' :: places ∧
  AreDigits whole ∧ AreDigits places ∧ (Nat.ofDigitChars 10 (whole ++ places) 0 : ℚ) / 10 ^ places.length = q

section

variable {ds : List Char}

lemma isPointed_behind (hds : AreDigits ds) (k : Nat) :
    IsPointed (ds ++ zeros k ++ ['.', '0']) (Nat.ofDigitChars 10 ds 0 * 10 ^ (k : ℤ)) := by
  obtain ⟨hne, hdigits⟩ := hds
  refine ⟨ds ++ zeros k, ['0'], rfl, ⟨by simp [hne], ?_⟩, ⟨by simp, by simp⟩, ?_⟩
  · exact List.forall_mem_append.mpr ⟨hdigits, fun c hc => isDigit_of_mem_zeros hc⟩
  · have hnumber : Nat.ofDigitChars 10 (ds ++ zeros k ++ ['0']) 0 =
        10 * (10 ^ k * Nat.ofDigitChars 10 ds 0) := by
      rw [Nat.ofDigitChars_append, Nat.ofDigitChars_append, zeros, Nat.ofDigitChars_replicate_zero]
      rfl
    rw [hnumber, List.length_singleton, zpow_natCast]
    push_cast
    field_simp

lemma isPointed_among (hds : AreDigits ds) {k : Nat} (hpos : 0 < k) (hless : k < ds.length) :
    IsPointed (ds.take (ds.length - k) ++ '.' :: ds.drop (ds.length - k))
      (Nat.ofDigitChars 10 ds 0 * 10 ^ (-k : ℤ)) := by
  obtain ⟨hne, hdigits⟩ := hds
  refine ⟨_, _, rfl, ⟨?_, ?_⟩, ⟨?_, ?_⟩, ?_⟩
  · rw [Ne, List.take_eq_nil_iff, not_or]
    exact ⟨by omega, hne⟩
  · exact fun c hc => hdigits c (List.mem_of_mem_take hc)
  · rw [Ne, List.drop_eq_nil_iff]
    omega
  · exact fun c hc => hdigits c (List.mem_of_mem_drop hc)
  · rw [List.take_append_drop, List.length_drop, Nat.sub_sub_self hless.le, zpow_neg, zpow_natCast,
      div_eq_mul_inv]

lemma isPointed_in_front (hds : AreDigits ds) {k : Nat} (hmore : ds.length ≤ k) :
    IsPointed ('0' :: '.' :: zeros (k - ds.length) ++ ds) (Nat.ofDigitChars 10 ds 0 * 10 ^ (-k : ℤ)) := by
  obtain ⟨hne, hdigits⟩ := hds
  refine ⟨['0'], zeros (k - ds.length) ++ ds, rfl, ⟨by simp, by simp⟩, ⟨by simp [hne], ?_⟩, ?_⟩
  · exact List.forall_mem_append.mpr ⟨fun c hc => isDigit_of_mem_zeros hc, hdigits⟩
  · have hnumber : Nat.ofDigitChars 10 (['0'] ++ (zeros (k - ds.length) ++ ds)) 0 = Nat.ofDigitChars 10 ds 0 := by
      rw [Nat.ofDigitChars_append, Nat.ofDigitChars_append, zeros, Nat.ofDigitChars_replicate_zero]
      rfl
    rw [hnumber, List.length_append, zeros, List.length_replicate, Nat.sub_add_cancel hmore, zpow_neg,
      zpow_natCast, div_eq_mul_inv]

end

lemma isPointed_positional (d : Decimal) : IsPointed (treeNotation.positionalText d) d.value := by
  have hds := areDigits_toDigits d.digits
  have hvalue : Nat.ofDigitChars 10 (Nat.toDigits 10 d.digits) 0 = d.digits := Nat.ofDigitChars_ten_toDigits
  unfold Style.positionalText Decimal.value
  simp only
  split
  case isTrue hexp =>
    obtain ⟨k, hk⟩ := Int.eq_ofNat_of_zero_le hexp
    have hpointed := isPointed_behind hds k
    rw [hvalue] at hpointed
    rw [hk]
    exact hpointed
  case isFalse hexp =>
    obtain ⟨k, hk⟩ : ∃ k : ℕ, d.exp = -k := ⟨(-d.exp).toNat, by omega⟩
    rw [hk, neg_neg, Int.toNat_natCast]
    split
    case isTrue hless =>
      have hpointed := isPointed_among hds (show 0 < k by omega) hless
      rwa [hvalue] at hpointed
    case isFalse hmore =>
      have hpointed := isPointed_in_front hds (Nat.le_of_not_lt hmore)
      rwa [hvalue] at hpointed

lemma exists_exponent (d : Decimal) : ∃ cs v, exponentText d = cs ++ 'e' :: intText d.leading ∧
    Spells cs [.number v] := by
  obtain ⟨hne, hdigits⟩ := areDigits_toDigits d.digits
  by_cases hone : (Nat.toDigits 10 d.digits).length = 1
  · have hlt : d.digits < 10 := by
      simpa using (Nat.length_toDigits_le_iff (b := 10) (k := 1) (by decide) one_pos).mp hone.le
    refine ⟨Nat.toDigits 10 d.digits, _, ?_, spells_digits (by omega)⟩
    simp [exponentText, Decimal.leading, hone, List.take_of_length_le]
  · have htext : exponentText d = ((Nat.toDigits 10 d.digits).take 1 ++ '.' :: (Nat.toDigits 10 d.digits).drop 1) ++
        'e' :: intText d.leading := by
      simp [exponentText, Decimal.leading, hone]
    have hwhole : AreDigits ((Nat.toDigits 10 d.digits).take 1) :=
      ⟨by simp [hne], fun c hc => hdigits c (List.mem_of_mem_take hc)⟩
    exact ⟨_, _, htext, spells_point hwhole fun c hc => hdigits c (List.mem_of_mem_drop hc)⟩

lemma exists_spells_intText {n : Int} (h : n.natAbs < 0x80000000) : ∃ ls, Spells (intText n) ls := by
  have hdigits := spells_digits h
  unfold intText
  split
  · exact ⟨_, hdigits.cons_mark .minus⟩
  · exact ⟨_, hdigits⟩

lemma parse_exponent (c : Constants) {text : String} {v : Literal} (hcs : Spells cs [.number v]) {n : Int}
    (hn : n.natAbs < 0x80000000) (htext : text.toList = cs ++ 'e' :: intText n) :
    ∃ i, Expr.parse c text = .error ⟨i, .afterExpression (.letter 'e')⟩ := by
  obtain ⟨ls, hls⟩ := exists_spells_intText hn
  have hspells : Spells text.toList (.number v :: .letter 'e' :: ls) := by
    rw [htext]
    refine hcs.append (.letter rfl hls) ?_
    intro c hc
    obtain rfl := Option.some.inj hc
    exact ⟨rfl, by decide⟩
  obtain ⟨tokens, hlex, htokens⟩ := lex_eq_ok_iff.mpr hspells
  obtain ⟨t, tokens, rfl, hnumber, htokens⟩ := List.map_eq_cons_iff.mp htokens
  obtain ⟨t', tokens, rfl, hletter, -⟩ := List.map_eq_cons_iff.mp htokens
  refine ⟨t'.start, ?_⟩
  simp only [Expr.parse, hlex, bind, Except.bind, Parser.tree, Parser.readFactor, Parser.readOperator,
    hnumber, hletter]
  rfl

lemma parse_number (c : Constants) {text : String} {v : Literal} (h : Spells text.toList [.number v]) :
    Expr.parse c text = .ok (.literal v) :=
  Expr.parse_eq_ok_iff.mpr ⟨_, h, Grammar.isSum_of_factor (.number v)⟩

lemma toList_text (v : Float32) : (Expr.literal (.decimal v)).text.toList = treeNotation.single v := by
  rw [Expr.text, String.toList_ofList, Expr.chars]
  rfl

lemma unpack_of_decimal (hcs : Spells cs [.number (.decimal v)]) (hv : v.isFinite = true) :
    v.toModel.unpack = .zero .positive ∨ ∃ m e hm, v.toModel.unpack = .finite .positive m e hm := by
  obtain ⟨n, k, rfl⟩ := hcs.exists_scientific List.mem_cons_self
  have hunsigned := unsigned_ofScientific n k
  change (Float32.ofScientific n true k).toModel.unpack.isFinite = true at hv
  cases hunpack : (Float32.ofScientific n true k).toModel.unpack with
  | notANumber =>
    rw [hunpack] at hv
    cases hv
  | infinity s =>
    rw [hunpack] at hv
    cases hv
  | zero s =>
    rw [hunpack] at hunsigned
    cases hunsigned
    exact Or.inl rfl
  | finite s m e hm =>
    rw [hunpack] at hunsigned
    cases hunsigned
    exact Or.inr ⟨m, e, hm, rfl⟩

end

def Number.Positional (v : Float32) : Prop := v = 0 ∨ 0.0001 ≤ v ∧ v < 1e16

namespace Expr

variable {v : Float32} {m : Nat} {e : Int} {hm : 0 < m}

lemma parse_zero (c : Constants) (hv : v.toModel.unpack = .zero .positive) :
    v = 0 ∧ Expr.parse c (Expr.literal (.decimal v)).text = .ok (.literal (.decimal v)) := by
  have hzero : v = 0 := by
    have hpacked := pack_unpack v (congrArg UnpackedFloat.isNaN hv)
    rw [hv] at hpacked
    exact congrArg Float32.ofModel hpacked.symm
  subst hzero
  refine ⟨rfl, parse_number c ?_⟩
  rw [toList_text, single_zero hv]
  change Spells (['0'] ++ '.' :: ['0']) _
  exact spells_point ⟨by simp, by simp⟩ (by simp)

lemma parse_positional (c : Constants) (hv : v.toModel.unpack = .finite .positive m e hm)
    (hplain : 0.0001 ≤ v ∧ v < 1e16) :
    Expr.parse c (Expr.literal (.decimal v)).text = .ok (.literal (.decimal v)) := by
  obtain ⟨whole, places, hpoint, hwhole, hplaces, hvalue⟩ := isPointed_positional (Binary.single m e).shortest
  have hround := roundsTo_shortest hm e
  rw [← hvalue] at hround
  have hread := ofScientific_eq hv (List.length_pos_iff.mpr hplaces.ne_nil) hround
  refine parse_number c ?_
  rw [toList_text, single_finite hv, treeNotation_decimalText, if_pos ((positional_iff hv).mpr hplain), hpoint]
  have hspells := spells_point hwhole hplaces.digits
  rwa [hread] at hspells

lemma parse_not_positional (c : Constants) (hv : v.toModel.unpack = .finite .positive m e hm)
    (hexponent : ¬ (0.0001 ≤ v ∧ v < 1e16)) : ∃ n, Expr.parse c (Expr.literal (.decimal v)).text =
      .error ⟨n, .afterExpression (.letter 'e')⟩ := by
  obtain ⟨cs, front, hchars, hcs⟩ := exists_exponent (Binary.single m e).shortest
  obtain ⟨hc, he⟩ := canonical_of_unpack hv
  have hbounds := leading_bounds hc he
  refine parse_exponent c hcs (n := (Binary.single m e).shortest.leading) (by omega) ?_
  rw [toList_text, single_finite hv, treeNotation_decimalText, if_neg (mt (positional_iff hv).mp hexponent), hchars]

end Expr

/-- What is written for a number that was read from digits with a point is read as this number again as
long as it is zero, or at least `0.0001` and less than `1e16`. Otherwise it is written with an exponent,
and reading stops at its letter. -/
theorem Expr.parse_decimal_text (c : Constants) (text : String) (v : Float32) (i j : Nat)
    (h : lex text.toList = .ok [⟨.number (.decimal v), i, j⟩]) (hv : v.isFinite = true) :
    let written := (Expr.literal (.decimal v)).text
    (Positional v → Expr.parse c written = .ok (.literal (.decimal v))) ∧
    (¬ Positional v → ∃ n, Expr.parse c written = .error ⟨n, .afterExpression (.letter 'e')⟩) := by
  intro written
  rcases unpack_of_decimal (Spells.of_lexFrom h) hv with hzero | ⟨m, e, hm, hunpack⟩
  · obtain ⟨rfl, hparse⟩ := Expr.parse_zero c hzero
    exact ⟨fun _ => hparse, fun hne => absurd (Or.inl rfl) hne⟩
  · have hpositional : Positional v ↔ 0.0001 ≤ v ∧ v < 1e16 := by
      refine or_iff_right ?_
      rintro rfl
      exact nomatch hunpack
    rw [hpositional]
    exact ⟨Expr.parse_positional c hunpack, Expr.parse_not_positional c hunpack⟩

theorem Expr.parse_decimal_text_of_three_tenths :
    let c : Constants := ⟨4, 3, 9⟩
    let v := Float32.ofBits 0x3E99999A
    lex "0.30000001192092896".toList = .ok [⟨.number (.decimal v), 0, 19⟩] ∧ v.isFinite = true ∧ Positional v ∧
      (Expr.literal (.decimal v)).text = "0.3" ∧ Expr.parse c "0.3" = .ok (.literal (.decimal v)) := by
  intro c v
  have hvalue : Float32.ofScientific 30000001192092896 true 17 = v := by decide +kernel
  have hlex : lex "0.30000001192092896".toList = .ok [⟨.number (.decimal v), 0, 19⟩] := by
    rw [← hvalue]
    simp [lex, lexFrom, isBlank, Digits.ofFront, Digits.before, Digits.literal?, Digits.spelling,
      Nat.ofDigitChars, Functor.map, Except.map]
  have hfinite : v.isFinite = true := by decide +kernel
  have hpositional : Positional v := Or.inr ⟨by decide +kernel, by decide +kernel⟩
  have htext : (Expr.literal (.decimal v)).text = "0.3" := by decide +kernel
  have hback := (parse_decimal_text c _ v 0 19 hlex hfinite).1 hpositional
  exact ⟨hlex, hfinite, hpositional, htext, htext ▸ hback⟩

theorem Expr.exponent_unread :
    let v := Float32.ofBits 0x5A0E1BCA
    lex "10000000000000000.0".toList = .ok [⟨.number (.decimal v), 0, 19⟩] ∧ v.isFinite = true ∧
      (Expr.literal (.decimal v)).text = "1e16" ∧
      ∀ c, Expr.parse c "1e16" = .error ⟨1, .afterExpression (.letter 'e')⟩ := by
  intro v
  have hvalue : Float32.ofScientific 100000000000000000 true 1 = v := by decide +kernel
  have hlex : lex "10000000000000000.0".toList = .ok [⟨.number (.decimal v), 0, 19⟩] := by
    rw [← hvalue]
    simp [lex, lexFrom, isBlank, Digits.ofFront, Digits.before, Digits.literal?, Digits.spelling,
      Nat.ofDigitChars, Functor.map, Except.map]
  exact ⟨hlex, by decide +kernel, by decide +kernel, fun c => by with_unfolding_all rfl⟩

end VideoRemap

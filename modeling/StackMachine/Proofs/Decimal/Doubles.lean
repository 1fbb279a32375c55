import StackMachine.Proofs.Decimal.Packing
import StackMachine.Proofs.Decimal.Shortest

/-!
Reading decimals as floating point numbers.  A decimal in the interval of a number of the format reads as
that number, and a finite double is what its sign, mantissa and exponent pack to; so a finite double comes
back from its shortest decimal.
-/

set_option autoImplicit false

namespace StackMachine.Decimal

open Float.Model (Format UnpackedFloat totalExponent)
open Float.Model.UnpackedFloat (accuracyOfFraction roundWithAccuracy divCore)

variable {format : Format} {m : Nat} {e : Int} {d : Decimal}

/-! ## From decimals to places -/

theorem IsCanonical.significand_pos (hc : IsCanonical format m e)
    (h : (Interval.ofBinary format m e).Contains d.value) : 0 < d.significand := by
  refine Nat.pos_of_ne_zero fun hzero => ?_
  have hpos : (0 : ℚ) < 2 ^ (e - 1) := zpow_pos two_pos _
  have hlow := hc.two_zpow_le h
  rw [value, hzero, Nat.cast_zero, zero_mul] at hlow
  exact absurd hlow (not_le.2 hpos)

/-- A decimal whose exponent is not negative is read as a whole number, with places to spare. -/
theorem ofScientific_of_nonneg (hc : IsCanonical format m e) (hs : 0 < d.significand)
    (h : (Interval.ofBinary format m e).Contains d.value) (he : 0 ≤ d.exponent) :
    roundWithAccuracy format .positive (d.significand <<< format.mantissaBits * 10 ^ d.exponent.toNat)
      (-format.mantissaBits + 0) .exact = .finite .positive m e hc.pos := by
  rw [Nat.shiftLeft_eq, add_zero]
  set whole := d.significand * 2 ^ format.mantissaBits * 10 ^ d.exponent.toNat with hwhole
  have hvalue : (whole / (1 : Nat) : ℚ) * 2 ^ (-format.mantissaBits : Int) = d.value := by
    rw [value, ten_zpow, Int.toNat_of_nonpos (by omega : -d.exponent ≤ 0),
      zpow_neg, zpow_natCast, hwhole]
    push_cast
    field_simp
  have hlog : format.mantissaBits ≤ whole.log2 := by
    have hle : 2 ^ format.mantissaBits ≤ whole := by
      rw [hwhole, Nat.mul_right_comm]
      exact Nat.le_mul_of_pos_left _ (Nat.mul_pos hs (Nat.pow_pos (by decide)))
    exact (Nat.le_log2 (ne_of_gt ((Nat.two_pow_pos _).trans_le hle))).2 hle
  have hx : (-format.mantissaBits : Int) ≤ format.targetExponent
      (totalExponent (whole / 1) (-format.mantissaBits)) := by
    rw [Nat.div_one, Format.targetExponent, totalExponent]
    omega
  have hround := roundWithAccuracy_of_contains hc one_pos (hvalue ▸ h) hx .positive
  rwa [Nat.div_one, Nat.mod_one] at hround

/-- A quotient has the digits that its shifted dividend has more than its divisor. -/
theorem le_log2_quotient {s den k shift : Nat} (hs : 0 < s) (hden : 0 < den)
    (h : k + (den.log2 + 1) ≤ s.log2 + shift) : k ≤ (s * 2 ^ shift / den).log2 := by
  have hle : 2 ^ k ≤ s * 2 ^ shift / den := by
    rw [Nat.le_div_iff_mul_le hden]
    calc 2 ^ k * den
        ≤ 2 ^ k * 2 ^ (den.log2 + 1) := Nat.mul_le_mul_left _ Nat.lt_log2_self.le
      _ ≤ 2 ^ s.log2 * 2 ^ shift := by
          rw [← pow_add, ← pow_add]
          exact Nat.pow_le_pow_right two_pos h
      _ ≤ s * 2 ^ shift := Nat.mul_le_mul_right _ (Nat.log2_self_le hs.ne')
  exact (Nat.le_log2 (ne_of_gt ((Nat.two_pow_pos _).trans_le hle))).2 hle

/-- A decimal with a negative exponent is read as a quotient. -/
theorem ofScientific_of_neg (hc : IsCanonical format m e) (hs : 0 < d.significand)
    (h : (Interval.ofBinary format m e).Contains d.value) (he : d.exponent < 0) :
    roundWithAccuracy format .positive (divCore format d.significand 0 (10 ^ (-d.exponent).toNat) 0).1
      (divCore format d.significand 0 (10 ^ (-d.exponent).toNat) 0).2.1
      (divCore format d.significand 0 (10 ^ (-d.exponent).toNat) 0).2.2 = .finite .positive m e hc.pos := by
  have hden : 0 < 10 ^ (-d.exponent).toNat := Nat.pow_pos (by decide)
  have hvalue : d.value = d.significand / (10 ^ (-d.exponent).toNat : Nat) := by
    rw [value, ten_zpow, Int.toNat_of_nonpos he.le, pow_zero]
    push_cast
    ring
  generalize 10 ^ (-d.exponent).toNat = den at *
  generalize d.significand = s at *
  unfold divCore
  extract_lets target shift whole
  have hwhole : whole = s * 2 ^ shift := Nat.shiftLeft_eq _ _
  have htarget : target = min 0 (format.targetExponent (s.log2 - den.log2)) := by
    have hdigits : totalExponent s 0 - totalExponent den 0 = s.log2 - den.log2 := by
      rw [totalExponent, totalExponent]
      omega
    simp only [target, hdigits, sub_self]
  have hshift : (shift : Int) = -target := by omega
  refine roundWithAccuracy_of_contains hc hden ?_ ?_ .positive
  · have hwholeValue : (whole / den : ℚ) * 2 ^ target = s / den := by
      have hinv : (2 : ℚ) ^ shift * 2 ^ target = 1 := by
        rw [← zpow_natCast, ← zpow_add₀ two_ne_zero, hshift, neg_add_cancel, zpow_zero]
      rw [hwhole]
      push_cast
      rw [mul_div_right_comm, mul_assoc, hinv, mul_one]
    rwa [hwholeValue, ← hvalue]
  · rcases le_or_gt target format.minExponent with hlast | hother
    · exact hlast.trans (le_max_right _ _)
    · -- above the last place of the format the quotient fills the mantissa
      have hbits : 0 < format.mantissaBits := Nat.add_pos_left one_pos _
      have hplace : target + format.mantissaBits ≤ s.log2 - den.log2 := by
        rw [Format.targetExponent] at htarget
        omega
      have hfull : format.mantissaBits - 1 ≤ (whole / den).log2 := by
        rw [hwhole]
        exact le_log2_quotient hs hden (by omega)
      refine le_trans ?_ (le_max_left _ _)
      rw [totalExponent]
      omega

theorem two_zpow_le_ten_zpow {k : Int} (hk : 0 ≤ k) : (2 : ℚ) ^ k ≤ 10 ^ k :=
  zpow_le_zpow_left₀ hk (by norm_num) (by norm_num)

/-- A decimal in the interval of a number reads as the number. -/
theorem ofScientific_of_contains (hc : IsCanonical format m e)
    (hmin : -(2 ^ format.exponentBits : Int) < e) (hmax : e + format.mantissaBits ≤ 2 ^ format.exponentBits)
    (h : (Interval.ofBinary format m e).Contains d.value) :
    UnpackedFloat.ofScientific format d.significand d.exponent = .finite .positive m e hc.pos := by
  have hlow := hc.two_zpow_le h
  have hhigh := hc.lt_two_zpow h
  have hs := hc.significand_pos h
  have hbits : (0 : Int) ≤ 2 ^ format.exponentBits := by positivity
  have hsmall : ¬ d.exponent > 2 ^ format.exponentBits := fun hgt => by
    have hten := two_zpow_le_ten_zpow (hbits.trans hgt.le)
    have hone : (1 : ℚ) ≤ d.significand := by exact_mod_cast hs
    have hle : (2 : ℚ) ^ d.exponent ≤ d.value := by
      rw [value]
      exact hten.trans (le_mul_of_one_le_left (zpow_pos (by norm_num) _).le hone)
    have := (zpow_lt_zpow_iff_right₀ one_lt_two).1 (hle.trans_lt hhigh)
    omega
  have hlarge : ¬ d.exponent < -((2 ^ format.exponentBits : Int) + d.significand.log2) := fun hlt => by
    have hten : (10 : ℚ) ^ d.exponent ≤ 2 ^ d.exponent := by
      rw [← neg_neg d.exponent, zpow_neg, zpow_neg _ (-d.exponent)]
      exact inv_anti₀ (zpow_pos two_pos _) (two_zpow_le_ten_zpow (by omega))
    have hdigits : (d.significand : ℚ) < 2 ^ ((d.significand.log2 : Int) + 1) := by
      exact_mod_cast Nat.lt_log2_self
    have hlt' : d.value < 2 ^ ((d.significand.log2 : Int) + 1 + d.exponent) := by
      rw [value, zpow_add₀ two_ne_zero]
      exact mul_lt_mul hdigits hten (zpow_pos (by norm_num) _) (zpow_pos two_pos _).le
    have := (zpow_lt_zpow_iff_right₀ one_lt_two).1 (hlow.trans_lt hlt')
    omega
  rw [UnpackedFloat.ofScientific, dif_neg hs.ne', if_neg hsmall, if_neg hlarge]
  split
  · next he => exact ofScientific_of_nonneg hc hs h he
  · next he => exact ofScientific_of_neg hc hs h (not_le.1 he)

/-! ## Doubles -/

open Float.Model.UnpackedFloat (Sign)

variable {sign : Sign} {hm : 0 < m} {x : Float}

/-- Whether a minus is written. -/
def isNegative : Sign → Bool
  | .negative => true
  | .positive => false

/-- A double is what its sign, mantissa and exponent pack to. -/
theorem ofModel_pack_unpack (x : Float) : Float.ofModel (.pack x.toModel.unpack) = x :=
  Float.toBits_inj.1 (UInt64.toBitVec_inj.1 (UnpackedFloat.pack_unpack_of_valid x.toModel.valid))

theorem toFloat_of_contains (hx : x.toModel.unpack = .finite sign m e hm)
    (h : (Interval.ofBinary .binary64 m e).Contains d.value) :
    d.toFloat = .ofModel (.pack (.finite .positive m e hm)) := by
  have hpacks := packs_of_unpack hx
  have hmin := hpacks.isCanonical.le
  rw [show Format.binary64.minExponent = -1074 from rfl] at hmin
  have hbelow : -(2 ^ Format.binary64.exponentBits : Int) < e := by
    rw [show (2 : Int) ^ Format.binary64.exponentBits = 2048 from rfl]
    omega
  have hread := ofScientific_of_contains hpacks.isCanonical hbelow hpacks.le_exponent h
  rw [toFloat, Float.Model.ofScientific, hread]

/-- A decimal in the interval of a double reads as the double, with its sign in front. -/
theorem toSignedFloat_of_contains (hx : x.toModel.unpack = .finite sign m e hm)
    (h : (Interval.ofBinary .binary64 m e).Contains d.value) :
    d.toSignedFloat (isNegative sign) = x := by
  have hfloat := toFloat_of_contains hx h
  cases sign with
  | positive => rw [toSignedFloat, isNegative, if_neg (by decide), hfloat, ← hx, ofModel_pack_unpack]
  | negative =>
    obtain ⟨b, hb⟩ := (packs_of_unpack hx).with_sign .positive
    have hunpack : UnpackedFloat.unpack .binary64 (UnpackedFloat.pack .binary64 (.finite .positive m e hm))
        = .finite .positive m e hm := by
      rw [hb.pack_eq (by decide), hb.unpack_eq]
    have hneg : -d.toFloat = .ofModel (.pack (.finite .negative m e hm)) := by
      rw [hfloat]
      exact congrArg (fun u => Float.ofModel (.pack u.neg)) hunpack
    rw [toSignedFloat, isNegative, if_pos rfl, hneg, ← hx, ofModel_pack_unpack]

theorem toSignedFloat_of_zero (hx : x.toModel.unpack = .zero sign) (hd : d.significand = 0) :
    d.toSignedFloat (isNegative sign) = x := by
  have hfloat : d.toFloat = .ofModel (.pack (.zero .positive)) := by
    rw [toFloat, Float.Model.ofScientific, UnpackedFloat.ofScientific, dif_pos hd]
  cases sign with
  | positive => rw [toSignedFloat, isNegative, if_neg (by decide), hfloat, ← hx, ofModel_pack_unpack]
  | negative =>
    have hneg : -d.toFloat = .ofModel (.pack (.zero .negative)) := by
      rw [hfloat]
      decide +kernel
    rw [toSignedFloat, isNegative, if_pos rfl, hneg, ← hx, ofModel_pack_unpack]

end StackMachine.Decimal

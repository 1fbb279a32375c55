import Mathlib.Algebra.Order.Field.Power
import Mathlib.Data.Rat.Cast.Order
import Mathlib.Tactic.FieldSimp
import Mathlib.Tactic.Linarith
import Mathlib.Tactic.Ring
import StackMachine.Decimal.Shortest

/-!
Rounding a quotient to a binary format.  Whatever lies in the interval of a number of the format, as the
search for its shortest decimal sees it, is rounded to that number: in its own places if the quotient has
as many digits before the point, and over a carry from one place below if it lies just under a power of two.
-/

set_option autoImplicit false

namespace StackMachine.Decimal

open Float.Model (Format UnpackedFloat totalExponent)
open Float.Model.UnpackedFloat (ExtendedMantissa Accuracy accuracyOfFraction roundWithAccuracy
  shiftToExponent shiftToTargetExponent)

/-! ## Quotients with two residual bits -/

/-- The whole part of `num / den` with the residual bits of the rest. -/
def quotient (num den : Nat) : ExtendedMantissa :=
  .ofMantissaAndAccuracy (num / den) (accuracyOfFraction (num % den) den)

variable {num den : Nat}

theorem mantissa_quotient (num den : Nat) : (quotient num den).mantissa = num / den := by
  rw [quotient]
  cases accuracyOfFraction (num % den) den with
  | exact => rfl
  | inexact o => cases o <;> rfl

/-- The round bit tells whether the rest is at least one half. -/
theorem roundBit_quotient (hden : 0 < den) :
    (quotient num den).roundBit = decide (den ≤ 2 * (num % den)) := by
  rw [quotient, accuracyOfFraction]
  split
  · next hzero => simp [ExtendedMantissa.ofMantissaAndAccuracy, hzero, hden.ne']
  · rcases Nat.lt_trichotomy (2 * (num % den)) den with hlt | heq | hgt
    · rw [Nat.compare_eq_lt.2 hlt]
      simpa [ExtendedMantissa.ofMantissaAndAccuracy] using hlt
    · rw [Nat.compare_eq_eq.2 heq]
      simp [ExtendedMantissa.ofMantissaAndAccuracy, heq]
    · rw [Nat.compare_eq_gt.2 hgt]
      simpa [ExtendedMantissa.ofMantissaAndAccuracy] using hgt.le

/-- The sticky bit tells whether there is a rest besides one half. -/
theorem stickyBit_quotient (num den : Nat) :
    (quotient num den).stickyBit = decide (num % den ≠ 0 ∧ 2 * (num % den) ≠ den) := by
  rw [quotient, accuracyOfFraction]
  split
  · next hzero => simp [ExtendedMantissa.ofMantissaAndAccuracy, hzero]
  · next hzero =>
    rcases Nat.lt_trichotomy (2 * (num % den)) den with hlt | heq | hgt
    · rw [Nat.compare_eq_lt.2 hlt]
      simp [ExtendedMantissa.ofMantissaAndAccuracy, hzero, hlt.ne]
    · rw [Nat.compare_eq_eq.2 heq]
      simp [ExtendedMantissa.ofMantissaAndAccuracy, heq]
    · rw [Nat.compare_eq_gt.2 hgt]
      simp [ExtendedMantissa.ofMantissaAndAccuracy, hzero, hgt.ne']

/-- A shift by one place divides by two, and loses nothing that rounding needs. -/
theorem shiftRightOne_quotient (hden : 0 < den) :
    (quotient num den).shiftRightOne = quotient num (den * 2) := by
  have hrest : num % (den * 2) = num % den + den * (num / den % 2) := Nat.mod_mul
  have hlt := Nat.mod_lt num hden
  have hparity : num / den % 2 = 0 ∨ num / den % 2 = 1 := Nat.mod_two_eq_zero_or_one _
  have hext : ∀ a b : ExtendedMantissa, a.mantissa = b.mantissa → a.roundBit = b.roundBit →
      a.stickyBit = b.stickyBit → a = b := by
    rintro ⟨⟩ ⟨⟩ rfl rfl rfl
    rfl
  apply hext
  · rw [mantissa_quotient, ExtendedMantissa.shiftRightOne, mantissa_quotient, Nat.div_div_eq_div_mul]
  · rw [roundBit_quotient (by omega), ExtendedMantissa.shiftRightOne, mantissa_quotient, hrest]
    rcases hparity with h | h <;> rw [h] <;> simp <;> omega
  · rw [stickyBit_quotient, ExtendedMantissa.shiftRightOne, roundBit_quotient hden, stickyBit_quotient,
      hrest]
    rw [← Bool.decide_or, decide_eq_decide]
    rcases hparity with h | h <;> rw [h] <;> omega

theorem quotient_shiftRight (hden : 0 < den) (k : Nat) :
    quotient num den >>> k = quotient num (den * 2 ^ k) := by
  induction k with
  | zero => rw [Nat.pow_zero, Nat.mul_one]; rfl
  | succ k ih =>
    have hstep : quotient num den >>> (k + 1) = (quotient num den >>> k).shiftRightOne := rfl
    rw [hstep, ih, shiftRightOne_quotient (Nat.mul_pos hden (Nat.two_pow_pos k)), Nat.pow_succ,
      Nat.mul_assoc]

/-- The nearest whole number, and the even one of two. -/
theorem roundedMantissa_quotient (num den : Nat) : (quotient num den).roundedMantissa =
    if num % den = 0 ∨ 2 * (num % den) < den then num / den
    else if 2 * (num % den) = den then num / den + num / den % 2
    else num / den + 1 := by
  rw [quotient, accuracyOfFraction]
  split
  · next hzero => rw [if_pos (.inl hzero)]; rfl
  · next hzero =>
    rcases Nat.lt_trichotomy (2 * (num % den)) den with hlt | heq | hgt
    · rw [Nat.compare_eq_lt.2 hlt, if_pos (.inr hlt)]
      rfl
    · rw [Nat.compare_eq_eq.2 heq, if_neg (by omega), if_pos heq]
      rfl
    · rw [Nat.compare_eq_gt.2 hgt, if_neg (by omega), if_neg hgt.ne']
      rfl

/-- Within one half of a whole number, and at one half only of an even one, a quotient is rounded to it. -/
theorem roundedMantissa_eq {m : Nat} (hden : 0 < den) (hlow : 2 * m * den ≤ 2 * num + den)
    (hhigh : 2 * num ≤ 2 * m * den + den)
    (htie : 2 * m * den = 2 * num + den ∨ 2 * num = 2 * m * den + den → m % 2 = 0) :
    (quotient num den).roundedMantissa = m := by
  have hnum := Nat.div_add_mod num den
  have hrest := Nat.mod_lt num hden
  rw [roundedMantissa_quotient]
  generalize num / den = whole at hnum ⊢
  generalize num % den = rest at hnum hrest ⊢
  have hle : whole ≤ m := by
    by_contra h
    have : (m + 1) * den ≤ whole * den := Nat.mul_le_mul_right den (by omega)
    nlinarith
  have hge : m ≤ whole + 1 := by
    by_contra h
    have : (whole + 2) * den ≤ m * den := Nat.mul_le_mul_right den (by omega)
    nlinarith
  obtain rfl | rfl : m = whole ∨ m = whole + 1 := by omega
  · have hproduct : 2 * m * den = 2 * (den * m) := by ring
    split_ifs <;> omega
  · have hproduct : 2 * (whole + 1) * den = 2 * (den * whole) + 2 * den := by ring
    split_ifs <;> omega

/-! ## Numbers of a format -/

/-- The number `m * 2 ^ e` stands in the places that the format gives it. -/
structure IsCanonical (format : Format) (m : Nat) (e : Int) : Prop where
  pos : 0 < m
  lt : m < 2 ^ format.mantissaBits
  le : format.minExponent ≤ e
  full : e ≠ format.minExponent → 2 ^ format.mantissaBitsWithoutImplicit ≤ m

variable {format : Format} {m : Nat} {e : Int}

/-- The leading digit is not stored. -/
theorem mantissaBits_eq (format : Format) : format.mantissaBits = 1 + format.mantissaBitsWithoutImplicit := rfl

theorem IsCanonical.targetExponent (h : IsCanonical format m e) :
    format.targetExponent (totalExponent m e) = e := by
  have hlog : m.log2 < format.mantissaBits := (Nat.log2_lt h.pos.ne').2 h.lt
  rw [Format.targetExponent, totalExponent]
  rcases eq_or_ne e format.minExponent with rfl | hne
  · omega
  · have hfull : format.mantissaBitsWithoutImplicit ≤ m.log2 := (Nat.le_log2 h.pos.ne').2 (h.full hne)
    have hle := h.le
    rw [mantissaBits_eq] at hlog ⊢
    omega

/-- The number lies in the interval, on a bound of it only if the interval is closed. -/
structure Interval.Contains (i : Interval) (q : ℚ) : Prop where
  low : i.low * 2 ^ i.exponent ≤ q
  high : q ≤ i.high * 2 ^ i.exponent
  bound : q = i.low * 2 ^ i.exponent ∨ q = i.high * 2 ^ i.exponent → i.closed = true

variable {q : ℚ}

theorem two_zpow_eq_double (e : Int) : (2 : ℚ) ^ e = 2 * 2 ^ (e - 1) := by
  rw [zpow_sub₀ two_ne_zero, zpow_one]
  ring

theorem two_zpow_sub_two (e : Int) : (2 : ℚ) ^ (e - 2) = 2 ^ e / 4 := by
  rw [zpow_sub₀ two_ne_zero]
  norm_num

/-- What rounds to a number is at most half a place away from it. -/
theorem Interval.Contains.near (h : (Interval.ofBinary format m e).Contains q) (hm : 0 < m) :
    (2 * m - 1) * 2 ^ e ≤ 2 * q ∧ 2 * q ≤ (2 * m + 1) * 2 ^ e
      ∧ (2 * q = (2 * m - 1) * 2 ^ e ∨ 2 * q = (2 * m + 1) * 2 ^ e → m % 2 = 0) := by
  obtain ⟨hlow, hhigh, hbound⟩ := h
  have hclosed : (Interval.ofBinary format m e).closed = true → m % 2 = 0 := of_decide_eq_true
  have hexponent : (Interval.ofBinary format m e).exponent = e - 2 := rfl
  have hhighEq : ((Interval.ofBinary format m e).high : ℚ) = 4 * m + 2 := by
    rw [ofBinary]
    push_cast
    ring
  have hlowGe : (4 * m : ℚ) ≤ (Interval.ofBinary format m e).low + 2 := by
    have : 4 * m ≤ (Interval.ofBinary format m e).low + 2 := by
      rw [ofBinary]
      dsimp only
      split <;> omega
    exact_mod_cast this
  simp only [hexponent, two_zpow_sub_two, hhighEq] at hlow hhigh hbound
  generalize ((Interval.ofBinary format m e).low : ℚ) = low at *
  have hpos : (0 : ℚ) < 2 ^ e := zpow_pos two_pos e
  generalize (2 : ℚ) ^ e = place at *
  have hlowMul : 4 * m * place ≤ (low + 2) * place := mul_le_mul_of_nonneg_right hlowGe hpos.le
  refine ⟨by linarith, by linarith, ?_⟩
  rintro (htie | htie)
  · exact hclosed (hbound (.inl (by linarith)))
  · exact hclosed (hbound (.inr (by linarith)))

/-- Just under a power of two the places are half as wide. -/
theorem Interval.Contains.near_power (h : (Interval.ofBinary format m e).Contains q) (hm : 0 < m)
    (hpower : m = 2 ^ format.mantissaBitsWithoutImplicit) (he : e ≠ format.minExponent) :
    (4 * m - 1) * 2 ^ e ≤ 4 * q := by
  have hlowEq : ((Interval.ofBinary format m e).low : ℚ) = 4 * m - 1 := by
    have : (Interval.ofBinary format m e).low + 1 = 4 * m := by
      rw [ofBinary]
      dsimp only
      rw [if_pos ⟨hpower, he⟩]
      omega
    rw [eq_sub_iff_add_eq]
    exact_mod_cast this
  have hlow := h.low
  rw [hlowEq, show (Interval.ofBinary format m e).exponent = e - 2 from rfl, two_zpow_sub_two] at hlow
  linarith

/-- What rounds to a number has no digits before the first place of the format. -/
theorem IsCanonical.lt_two_zpow (hc : IsCanonical format m e)
    (h : (Interval.ofBinary format m e).Contains q) : q < 2 ^ (e + format.mantissaBits) := by
  have hnear := (h.near hc.pos).2.1
  have hpos : (0 : ℚ) < 2 ^ e := zpow_pos two_pos e
  have hm : (m + 1 : ℚ) ≤ 2 ^ format.mantissaBits := by exact_mod_cast hc.lt
  have := mul_le_mul_of_nonneg_right hm hpos.le
  rw [zpow_add₀ two_ne_zero, zpow_natCast]
  linarith

/-- What rounds to a number is at least half a place. -/
theorem IsCanonical.two_zpow_le (hc : IsCanonical format m e)
    (h : (Interval.ofBinary format m e).Contains q) : 2 ^ (e - 1) ≤ q := by
  have hnear := (h.near hc.pos).1
  have hone : (1 : ℚ) ≤ m := by exact_mod_cast hc.pos
  have hpos : (0 : ℚ) < 2 ^ (e - 1) := zpow_pos two_pos _
  have hplace := mul_le_mul_of_nonneg_right hone hpos.le
  rw [two_zpow_eq_double] at hnear
  linarith

/-- What rounds to a number with fewer digits than the number does so because the number is a power of two. -/
theorem IsCanonical.eq_two_pow (hc : IsCanonical format m e)
    (h : (Interval.ofBinary format m e).Contains q) (hne : e ≠ format.minExponent)
    (hsmall : q < 2 ^ (e + format.mantissaBitsWithoutImplicit)) :
    m = 2 ^ format.mantissaBitsWithoutImplicit := by
  have hlow := (h.near hc.pos).1
  have hpos : (0 : ℚ) < 2 ^ e := zpow_pos two_pos e
  rw [zpow_add₀ two_ne_zero, zpow_natCast] at hsmall
  have hlt : (2 * m - 1 : ℚ) < 2 * 2 ^ format.mantissaBitsWithoutImplicit :=
    lt_of_mul_lt_mul_right (by linarith : _ * (2 : ℚ) ^ e < _) hpos.le
  have hlt' : 2 * m < 2 * 2 ^ format.mantissaBitsWithoutImplicit + 1 := by
    have : (2 * m : ℚ) < 2 * 2 ^ format.mantissaBitsWithoutImplicit + 1 := by linarith
    exact_mod_cast this
  have := hc.full hne
  omega

/-! ## The first place of a quotient -/

theorem lt_two_zpow_totalExponent (num : Nat) (hden : 0 < den) (x : Int) :
    (num / den : ℚ) * 2 ^ x < 2 ^ totalExponent (num / den) x := by
  have hlt : num < den * 2 ^ ((num / den).log2 + 1) :=
    (Nat.div_lt_iff_lt_mul hden).1 Nat.lt_log2_self |>.trans_eq (Nat.mul_comm _ _)
  have hquotient : (num / den : ℚ) < 2 ^ ((num / den).log2 + 1) := by
    rw [div_lt_iff₀' (by exact_mod_cast hden)]
    exact_mod_cast hlt
  rw [totalExponent, zpow_add₀ two_ne_zero]
  refine mul_lt_mul_of_pos_right ?_ (zpow_pos two_pos x)
  exact_mod_cast hquotient

theorem two_zpow_totalExponent_le (hden : 0 < den) (hwhole : num / den ≠ 0) (x : Int) :
    2 ^ (totalExponent (num / den) x - 1) ≤ (num / den : ℚ) * 2 ^ x := by
  have hle : den * 2 ^ (num / den).log2 ≤ num :=
    (Nat.mul_comm _ _).trans_le ((Nat.le_div_iff_mul_le hden).1 (Nat.log2_self_le hwhole))
  have hquotient : (2 : ℚ) ^ (num / den).log2 ≤ num / den := by
    rw [le_div_iff₀' (by exact_mod_cast hden)]
    exact_mod_cast hle
  rw [totalExponent, show ((num / den).log2 + 1 + x - 1 : Int) = (num / den).log2 + x by omega,
    zpow_add₀ two_ne_zero, zpow_natCast]
  exact mul_le_mul_of_nonneg_right hquotient (zpow_pos two_pos x).le

/-- The place of the last digit is found from the size of the quotient alone. -/
theorem targetExponent_quotient {x : Int} (hden : 0 < den)
    (hx : x ≤ format.targetExponent (totalExponent (num / den) x))
    (he : format.minExponent ≤ e) (hlt : (num / den : ℚ) * 2 ^ x < 2 ^ (e + format.mantissaBits))
    (hge : e ≠ format.minExponent →
      2 ^ (e + format.mantissaBitsWithoutImplicit) ≤ (num / den : ℚ) * 2 ^ x) :
    format.targetExponent (totalExponent (num / den) x) = e := by
  have hbits : 0 < format.mantissaBitsWithoutImplicit := format.hm
  have hlower : e ≠ format.minExponent →
      e + format.mantissaBitsWithoutImplicit < totalExponent (num / den) x := fun hne =>
    (zpow_lt_zpow_iff_right₀ one_lt_two).1 ((hge hne).trans_lt (lt_two_zpow_totalExponent num hden x))
  have hupper : num / den ≠ 0 → totalExponent (num / den) x - 1 < e + format.mantissaBits := fun hwhole =>
    (zpow_lt_zpow_iff_right₀ one_lt_two).1 ((two_zpow_totalExponent_le hden hwhole x).trans_lt hlt)
  have hzero : num / den = 0 → totalExponent (num / den) x = 1 + x := fun h => by
    rw [h, totalExponent, Nat.log2_zero]
    omega
  rw [Format.targetExponent, mantissaBits_eq] at *
  rcases eq_or_ne (num / den) 0 with h | h
  · have := hzero h
    omega
  · have := hupper h
    omega

/-! ## Rounding -/

theorem shiftToTargetExponent_quotient {x : Int}
    (hx : x ≤ format.targetExponent (totalExponent (num / den) x)) (hden : 0 < den) :
    shiftToTargetExponent format (num / den) x (accuracyOfFraction (num % den) den)
      = (quotient num (den * 2 ^ (format.targetExponent (totalExponent (num / den) x) - x).toNat),
        format.targetExponent (totalExponent (num / den) x)) := by
  rw [shiftToTargetExponent, shiftToExponent, ← quotient_shiftRight hden]
  refine Prod.ext rfl ?_
  dsimp only
  omega

/-- A whole number needs no residual bits. -/
theorem shiftToTargetExponent_exact {x : Int} (hx : x ≤ format.targetExponent (totalExponent m x)) :
    shiftToTargetExponent format m x .exact
      = (quotient m (2 ^ (format.targetExponent (totalExponent m x) - x).toNat),
        format.targetExponent (totalExponent m x)) := by
  have h : shiftToTargetExponent format (m / 1) x (accuracyOfFraction (m % 1) 1) = _ :=
    shiftToTargetExponent_quotient (by rwa [Nat.div_one]) one_pos
  rwa [Nat.div_one, Nat.mod_one, Nat.one_mul] at h

theorem roundWithAccuracy_of_shifts {x e₁ : Int} {first second : ExtendedMantissa} {accuracy : Accuracy}
    {whole : Nat} (hm : 0 < m) (hfirst : shiftToTargetExponent format whole x accuracy = (first, e₁))
    (hsecond : shiftToTargetExponent format first.roundedMantissa e₁ .exact = (second, e))
    (hmantissa : second.mantissa = m) (sign : UnpackedFloat.Sign) :
    roundWithAccuracy format sign whole x accuracy = .finite sign m e hm := by
  subst hmantissa
  rw [roundWithAccuracy, hfirst]
  dsimp only
  rw [hsecond]
  exact dif_neg hm.ne'

/-- The quotient counted in places of another width. -/
theorem quotient_in_places {x t : Int} (hx : x ≤ t) (num den : Nat) :
    (num / (den * 2 ^ (t - x).toNat : Nat) : ℚ) * 2 ^ t = num / den * 2 ^ x := by
  have hsplit : (2 : ℚ) ^ t = 2 ^ (t - x).toNat * 2 ^ x := by
    rw [← zpow_natCast, ← zpow_add₀ two_ne_zero]
    congr 1
    omega
  have hpow : (2 : ℚ) ^ (t - x).toNat ≠ 0 := pow_ne_zero _ two_ne_zero
  rw [hsplit]
  push_cast
  field_simp

theorem roundedMantissa_of_near (hden : 0 < den) (hlow : (2 * m - 1 : ℚ) ≤ 2 * (num / den))
    (hhigh : (2 * (num / den) : ℚ) ≤ 2 * m + 1)
    (htie : (2 * (num / den) : ℚ) = 2 * m - 1 ∨ (2 * (num / den) : ℚ) = 2 * m + 1 → m % 2 = 0) :
    (quotient num den).roundedMantissa = m := by
  have hpos : (0 : ℚ) < den := by exact_mod_cast hden
  have hnum : (num : ℚ) = num / den * den := (div_mul_cancel₀ _ hpos.ne').symm
  generalize (num / den : ℚ) = ratio at *
  have hlowMul := mul_le_mul_of_nonneg_right hlow hpos.le
  have hhighMul := mul_le_mul_of_nonneg_right hhigh hpos.le
  refine roundedMantissa_eq hden ?_ ?_ ?_
  · have : (2 * m * den : ℚ) ≤ 2 * num + den := by linarith
    exact_mod_cast this
  · have : (2 * num : ℚ) ≤ 2 * m * den + den := by linarith
    exact_mod_cast this
  · intro h
    refine htie (h.imp (fun h => ?_) fun h => ?_)
    · have : (2 * m * den : ℚ) = 2 * num + den := by exact_mod_cast h
      exact mul_right_cancel₀ hpos.ne' (by linarith)
    · have : (2 * num : ℚ) = 2 * m * den + den := by exact_mod_cast h
      exact mul_right_cancel₀ hpos.ne' (by linarith)

variable {x : Int}

/-- A quotient with as many digits as the number is rounded in its own places. -/
theorem roundWithAccuracy_in_place (hc : IsCanonical format m e) (hden : 0 < den)
    (hq : (Interval.ofBinary format m e).Contains (num / den * 2 ^ x))
    (hx : x ≤ format.targetExponent (totalExponent (num / den) x))
    (hlarge : e ≠ format.minExponent →
      2 ^ (e + format.mantissaBitsWithoutImplicit) ≤ (num / den : ℚ) * 2 ^ x)
    (sign : UnpackedFloat.Sign) :
    roundWithAccuracy format sign (num / den) x (accuracyOfFraction (num % den) den)
      = .finite sign m e hc.pos := by
  obtain ⟨hlow, hhigh, htie⟩ := hq.near hc.pos
  have hpos : (0 : ℚ) < 2 ^ e := zpow_pos two_pos e
  have htarget := targetExponent_quotient hden hx hc.le (hc.lt_two_zpow hq) hlarge
  have hshift := shiftToTargetExponent_quotient hx hden
  rw [htarget] at hx hshift
  rw [← quotient_in_places hx] at hlow hhigh htie
  have hdenominator : 0 < den * 2 ^ (e - x).toNat := Nat.mul_pos hden (Nat.two_pow_pos _)
  have hround : (quotient num (den * 2 ^ (e - x).toNat)).roundedMantissa = m := by
    refine roundedMantissa_of_near hdenominator (le_of_mul_le_mul_right (by linarith) hpos)
      (le_of_mul_le_mul_right (by linarith) hpos) fun h => htie (h.imp (fun h => ?_) fun h => ?_)
    · rw [← h]; ring
    · rw [← h]; ring
  have hagain := shiftToTargetExponent_exact (hc.targetExponent.ge)
  rw [hc.targetExponent, sub_self, Int.toNat_zero, pow_zero] at hagain
  exact roundWithAccuracy_of_shifts hc.pos hshift (by rw [hround, hagain])
    (by rw [mantissa_quotient, Nat.div_one]) sign

/-- A quotient just under a power of two has its places half as wide. -/
theorem targetExponent_under_power (hc : IsCanonical format m e) (hden : 0 < den)
    (hq : (Interval.ofBinary format m e).Contains (num / den * 2 ^ x))
    (hx : x ≤ format.targetExponent (totalExponent (num / den) x)) (hne : e ≠ format.minExponent)
    (hpower : m = 2 ^ format.mantissaBitsWithoutImplicit)
    (hsmall : (num / den : ℚ) * 2 ^ x < 2 ^ (e + format.mantissaBitsWithoutImplicit)) :
    format.targetExponent (totalExponent (num / den) x) = e - 1 := by
  have hmin : format.minExponent ≤ e - 1 := by
    have := hc.le
    omega
  refine targetExponent_quotient hden hx hmin ?_ fun _ => ?_
  · have hplaces : e - 1 + ((1 + format.mantissaBitsWithoutImplicit : Nat) : Int)
        = e + format.mantissaBitsWithoutImplicit := by omega
    rwa [mantissaBits_eq, hplaces]
  · have hlow := hq.near_power hc.pos hpower hne
    have hpos : (0 : ℚ) < 2 ^ (e - 1) := zpow_pos two_pos _
    have hone : (1 : ℚ) ≤ m := by exact_mod_cast hc.pos
    have hplace := mul_le_mul_of_nonneg_right hone hpos.le
    have hfirst : (2 : ℚ) ^ (e - 1 + format.mantissaBitsWithoutImplicit) = m * 2 ^ (e - 1) := by
      rw [zpow_add₀ two_ne_zero, zpow_natCast, hpower, mul_comm]
      push_cast
      rfl
    rw [two_zpow_eq_double] at hlow
    rw [hfirst]
    linarith

/-- A quotient just under a power of two is rounded up to the power. -/
theorem roundWithAccuracy_over_carry (hc : IsCanonical format m e) (hden : 0 < den)
    (hq : (Interval.ofBinary format m e).Contains (num / den * 2 ^ x))
    (hx : x ≤ format.targetExponent (totalExponent (num / den) x)) (hne : e ≠ format.minExponent)
    (hsmall : (num / den : ℚ) * 2 ^ x < 2 ^ (e + format.mantissaBitsWithoutImplicit))
    (sign : UnpackedFloat.Sign) :
    roundWithAccuracy format sign (num / den) x (accuracyOfFraction (num % den) den)
      = .finite sign m e hc.pos := by
  have hpower := hc.eq_two_pow hq hne hsmall
  have hlow := hq.near_power hc.pos hpower hne
  have htarget := targetExponent_under_power hc hden hq hx hne hpower hsmall
  have hshift := shiftToTargetExponent_quotient hx hden
  rw [htarget] at hx hshift
  have hsize : (2 : ℚ) ^ (e + format.mantissaBitsWithoutImplicit) = m * (2 * 2 ^ (e - 1)) := by
    rw [zpow_add₀ two_ne_zero, zpow_natCast, hpower, ← two_zpow_eq_double, mul_comm]
    push_cast
    rfl
  rw [hsize, ← quotient_in_places hx] at hsmall
  rw [← quotient_in_places hx, two_zpow_eq_double] at hlow
  have hpos : (0 : ℚ) < 2 ^ (e - 1) := zpow_pos two_pos _
  have hdenominator : 0 < den * 2 ^ (e - 1 - x).toNat := Nat.mul_pos hden (Nat.two_pow_pos _)
  have hround : (quotient num (den * 2 ^ (e - 1 - x).toNat)).roundedMantissa = 2 * m := by
    refine roundedMantissa_of_near hdenominator (le_of_mul_le_mul_right ?_ hpos)
      (le_of_mul_le_mul_right ?_ hpos) fun _ => Nat.mul_mod_right 2 m
    · push_cast at hlow ⊢
      linarith
    · push_cast at hsmall ⊢
      linarith
  -- the carry makes one digit more than there is room for, so the second shift halves the mantissa
  have htotal : totalExponent (2 * m) (e - 1) = totalExponent m e := by
    rw [totalExponent, totalExponent, Nat.log2_two_mul hc.pos.ne']
    omega
  have hagain : shiftToTargetExponent format (2 * m) (e - 1) .exact = _ :=
    shiftToTargetExponent_exact (by rw [htotal, hc.targetExponent]; omega)
  rw [htotal, hc.targetExponent, sub_sub_cancel, Int.toNat_one, pow_one] at hagain
  exact roundWithAccuracy_of_shifts hc.pos hshift (by rw [hround, hagain])
    (by rw [mantissa_quotient, Nat.mul_div_cancel_left m two_pos]) sign

/-- Whatever lies in the interval of a number is rounded to it. -/
theorem roundWithAccuracy_of_contains (hc : IsCanonical format m e) (hden : 0 < den)
    (hq : (Interval.ofBinary format m e).Contains (num / den * 2 ^ x))
    (hx : x ≤ format.targetExponent (totalExponent (num / den) x)) (sign : UnpackedFloat.Sign) :
    roundWithAccuracy format sign (num / den) x (accuracyOfFraction (num % den) den)
      = .finite sign m e hc.pos := by
  by_cases hlarge : e ≠ format.minExponent →
      2 ^ (e + format.mantissaBitsWithoutImplicit) ≤ (num / den : ℚ) * 2 ^ x
  · exact roundWithAccuracy_in_place hc hden hq hx hlarge sign
  · obtain ⟨hne, hsmall⟩ := Classical.not_imp.1 hlarge
    exact roundWithAccuracy_over_carry hc hden hq hx hne (lt_of_not_ge hsmall) sign

end StackMachine.Decimal

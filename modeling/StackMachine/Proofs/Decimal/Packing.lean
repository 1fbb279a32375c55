import Mathlib
import StackMachine.Proofs.Decimal.Rounding

/-!
How numbers are packed.  A finite number other than zero has one of two forms, from which its sign, mantissa
and exponent are read back as they were packed.
-/

set_option autoImplicit false

namespace StackMachine.Decimal

open Float.Model (Format UnpackedFloat totalExponent)
open Float.Model.UnpackedFloat (Sign packComponents unpackMantissa unpackExponent unpackSign)

variable {format : Format} {m : Nat} {e : Int} {sign : Sign}

/-- The two forms of a finite number other than zero: with the least exponent, and with a leading digit that
is not stored. -/
inductive Packs (sign : Sign) : Nat → Int → BitVec format.numBits → Prop
  | subnormal (mantissa : BitVec format.mantissaBitsWithoutImplicit) (hm : mantissa ≠ 0#_) :
    Packs sign mantissa.toNat format.minExponent (packComponents format sign 0#_ mantissa)
  | normal (exponent : BitVec format.exponentBits) (mantissa : BitVec format.mantissaBitsWithoutImplicit)
    (h₀ : exponent ≠ 0#_) (h₁ : exponent ≠ -1#_) :
    Packs sign (2 ^ format.mantissaBitsWithoutImplicit + mantissa.toNat)
      (exponent.toNat - (format.exponentBias + format.mantissaBitsWithoutImplicit : Int))
      (packComponents format sign exponent mantissa)

variable {b : BitVec format.numBits}

/-- The leading digit that is not stored. -/
theorem toNat_leading_append {n : Nat} (mantissa : BitVec n) :
    (1#1 ++ mantissa).toNat = 2 ^ n + mantissa.toNat := by
  rw [BitVec.toNat_append, ← Nat.shiftLeft_add_eq_or_of_lt mantissa.isLt]
  simp [Nat.shiftLeft_eq]

theorem minExponent_eq (format : Format) : format.minExponent
    = 1 - (format.exponentBias + format.mantissaBitsWithoutImplicit : Int) := by
  have hpos : 0 < 2 ^ (format.exponentBits - 1) := Nat.two_pow_pos _
  have hcast : ((2 ^ (format.exponentBits - 1) : Nat) : Int) = 2 ^ (format.exponentBits - 1) :=
    Nat.cast_pow 2 _
  rw [Format.minExponent, Format.exponentBias, mantissaBits_eq, ← hcast]
  omega

theorem packs_of_unpack {hm : 0 < m} (h : UnpackedFloat.unpack format b = .finite sign m e hm) :
    Packs sign m e b := by
  have hb := UnpackedFloat.packComponents_unpackSign_unpackExponent_unpackMantissa b
  unfold UnpackedFloat.unpack at h
  extract_lets mantissa exponent places bit sign' at h
  split_ifs at h with h₁ h₂ h₃ h₄
  · injection h with hsign hmantissa hexponent
    have he : e = format.minExponent := by
      rw [minExponent_eq, ← hexponent]
      simp only [places, h₃, BitVec.toNat_zero]
      omega
    rw [he, ← hmantissa, ← hb, ← hsign, show unpackExponent b = 0#_ from h₃]
    exact .subnormal mantissa h₄
  · injection h with hsign hmantissa hexponent
    rw [← hmantissa, ← hexponent, ← hb, ← hsign, toNat_leading_append]
    exact .normal exponent mantissa h₃ h₁

namespace Packs

/-- The other sign. -/
theorem with_sign (h : Packs sign m e b) (sign' : Sign) : ∃ b', Packs sign' m e (b' : BitVec format.numBits) := by
  cases h with
  | subnormal mantissa hm => exact ⟨_, .subnormal mantissa hm⟩
  | normal exponent mantissa h₀ h₁ => exact ⟨_, .normal exponent mantissa h₀ h₁⟩

theorem isCanonical (h : Packs sign m e b) : IsCanonical format m e := by
  have hbits : 2 ^ format.mantissaBits = 2 * 2 ^ format.mantissaBitsWithoutImplicit := by
    rw [mantissaBits_eq, Nat.pow_add, Nat.pow_one]
  cases h with
  | subnormal mantissa hm =>
    have hne : mantissa.toNat ≠ 0 := fun h => hm (BitVec.eq_of_toNat_eq h)
    have hlt := mantissa.isLt
    exact ⟨Nat.pos_of_ne_zero hne, by omega, le_rfl, fun h => absurd rfl h⟩
  | normal exponent mantissa h₀ h₁ =>
    have hne : exponent.toNat ≠ 0 := fun h => h₀ (BitVec.eq_of_toNat_eq h)
    have hlt := mantissa.isLt
    have hpos := Nat.two_pow_pos format.mantissaBitsWithoutImplicit
    have hmin := minExponent_eq format
    exact ⟨by omega, by omega, by omega, fun _ => Nat.le_add_right _ _⟩

theorem toNat_exponent_add_two_le {n : Nat} {exponent : BitVec n} (h : exponent ≠ -1#_) :
    exponent.toNat + 2 ≤ 2 ^ n := by
  have hlt := exponent.isLt
  have hne : exponent.toNat ≠ 2 ^ n - 1 := fun heq => h (BitVec.eq_of_toNat_eq (by
    rw [heq, BitVec.neg_one_eq_allOnes, BitVec.toNat_allOnes]))
  omega

theorem le_exponent (h : Packs sign m e b) : e + format.mantissaBits ≤ 2 ^ format.exponentBits := by
  have hcast : ((2 ^ format.exponentBits : Nat) : Int) = 2 ^ format.exponentBits := Nat.cast_pow 2 _
  have hbits := mantissaBits_eq format
  rw [← hcast]
  cases h with
  | subnormal mantissa hm =>
    have hmin := minExponent_eq format
    have htwo : 2 ^ 1 ≤ 2 ^ format.exponentBits := Nat.pow_le_pow_right two_pos format.he
    omega
  | normal exponent mantissa h₀ h₁ =>
    have := toNat_exponent_add_two_le h₁
    omega

theorem unpack_eq (h : Packs sign m e b) :
    UnpackedFloat.unpack format b = .finite sign m e h.isCanonical.pos := by
  cases h with
  | subnormal mantissa hm =>
    have hleast : BitVec.ofNat format.exponentBits 0 ≠ -1#_ := fun h =>
      format.he.ne' (BitVec.zero_eq_neg_one_iff.1 h)
    simp only [UnpackedFloat.unpack, UnpackedFloat.unpackExponent_packComponents,
      UnpackedFloat.unpackMantissa_packComponents, UnpackedFloat.unpackSign_packComponents,
      Sign.ofBitVec_toBitVec, if_neg hleast,
      if_true, dif_neg hm, UnpackedFloat.finite.injEq, true_and]
    rw [minExponent_eq, BitVec.toNat_zero]
    omega
  | normal exponent mantissa h₀ h₁ =>
    simp only [UnpackedFloat.unpack, UnpackedFloat.unpackExponent_packComponents,
      UnpackedFloat.unpackMantissa_packComponents, UnpackedFloat.unpackSign_packComponents,
      Sign.ofBitVec_toBitVec, if_neg h₁, if_neg h₀,
      toNat_leading_append]

theorem isNaNBits_eq_false (h : Packs sign m e b) : UnpackedFloat.isNaNBits b = false := by
  cases h with
  | subnormal mantissa hm => simp [UnpackedFloat.isNaNBits, format.he.ne']
  | normal exponent mantissa h₀ h₁ => simp [UnpackedFloat.isNaNBits, h₁]

theorem pack_eq (h : Packs sign m e b) (hbits : 2 ≤ format.exponentBits) :
    UnpackedFloat.pack format (.finite sign m e h.isCanonical.pos) = b := by
  rw [← h.unpack_eq, UnpackedFloat.pack_unpack b hbits, h.isNaNBits_eq_false, if_neg Bool.false_ne_true]

end Packs

end StackMachine.Decimal

import StackMachine.Proofs.Decimal.Rounding

/-!
The shortest decimal of a binary number lies in the interval of the number, so reading it rounds back to the
number.  The search only ever answers with a multiple of a power of ten that meets the interval, and when
it finds none there is the number itself.
-/

set_option autoImplicit false

namespace StackMachine.Decimal

open Float.Model (Format UnpackedFloat totalExponent)

/-- The number that a decimal writes. -/
def value (d : Decimal) : ℚ := d.significand * 10 ^ d.exponent

theorem zpow_eq_pow_div_pow {a : ℚ} (ha : a ≠ 0) (k : Int) : a ^ k = a ^ k.toNat / a ^ (-k).toNat := by
  rw [← zpow_natCast, ← zpow_natCast, ← zpow_sub₀ ha]
  congr 1
  omega

theorem ten_zpow (k : Int) : (10 : ℚ) ^ k = 10 ^ k.toNat / 10 ^ (-k).toNat :=
  zpow_eq_pow_div_pow (by norm_num) k

/-! ## Multiples that meet an interval -/

namespace Interval

/-- What one quarter of the last place is scaled by, to compare it with a power of ten. -/
def scale (i : Interval) (power : Int) : Nat := 2 ^ i.exponent.toNat * 10 ^ (-power).toNat

/-- What a power of ten is scaled by, to compare it with one quarter of the last place. -/
def unit (i : Interval) (power : Int) : Nat := 2 ^ (-i.exponent).toNat * 10 ^ power.toNat

/-- One number is below another, or equal to it if the interval is closed. -/
def Meets (i : Interval) (a b : Nat) : Prop := a < b ∨ i.closed = true ∧ a = b

variable {i : Interval} {power : Int} {n : Nat}

theorem scale_pos (i : Interval) (power : Int) : 0 < i.scale power :=
  Nat.mul_pos (Nat.two_pow_pos _) (Nat.pow_pos (by decide))

theorem unit_pos (i : Interval) (power : Int) : 0 < i.unit power :=
  Nat.mul_pos (Nat.two_pow_pos _) (Nat.pow_pos (by decide))

/-- A multiple of a power of ten, counted in quarters of the last place. -/
theorem value_eq (i : Interval) (n : Nat) (power : Int) :
    value ⟨n, power⟩ = n * i.unit power / i.scale power * 2 ^ i.exponent := by
  rw [value, unit, scale, ten_zpow,
    zpow_eq_pow_div_pow two_ne_zero i.exponent]
  push_cast
  field_simp

theorem contains_of_meets (hlow : i.Meets (i.low * i.scale power) (n * i.unit power))
    (hhigh : i.Meets (n * i.unit power) (i.high * i.scale power)) : i.Contains (value ⟨n, power⟩) := by
  have hscale : (0 : ℚ) < i.scale power := by exact_mod_cast i.scale_pos power
  have hplace : (0 : ℚ) < 2 ^ i.exponent := zpow_pos two_pos _
  have hle : i.low * i.scale power ≤ n * i.unit power := hlow.elim Nat.le_of_lt fun h => h.2.le
  have hge : n * i.unit power ≤ i.high * i.scale power := hhigh.elim Nat.le_of_lt fun h => h.2.le
  rw [value_eq i]
  refine ⟨mul_le_mul_of_nonneg_right ?_ hplace.le, mul_le_mul_of_nonneg_right ?_ hplace.le, ?_⟩
  · rw [le_div_iff₀ hscale]
    exact_mod_cast hle
  · rw [div_le_iff₀ hscale]
    exact_mod_cast hge
  · rintro (h | h)
    · have heq := mul_right_cancel₀ hplace.ne' h
      rw [div_eq_iff hscale.ne'] at heq
      have heq' : n * i.unit power = i.low * i.scale power := by exact_mod_cast heq
      exact (hlow.resolve_left (by omega)).1
    · have heq := mul_right_cancel₀ hplace.ne' h
      rw [div_eq_iff hscale.ne'] at heq
      have heq' : n * i.unit power = i.high * i.scale power := by exact_mod_cast heq
      exact (hhigh.resolve_left (by omega)).1

theorem meets_iff {a b : Nat} :
    (decide (a < b) || i.closed && decide (a = b)) = true ↔ i.Meets a b := by
  simp [Meets]

/-- The multiple that is taken is one of the two next to the centre, and that one meets the interval. -/
theorem multiple?_eq_some {tie : Tie} (h : i.multiple? tie power = some n) :
    n = i.center * i.scale power / i.unit power ∧ i.Meets (i.low * i.scale power) (n * i.unit power)
      ∨ n = i.center * i.scale power / i.unit power + 1
        ∧ i.Meets (n * i.unit power) (i.high * i.scale power) := by
  unfold multiple? at h
  extract_lets scale unit below rest meets belowFits aboveFits at h
  have hbelow : belowFits = true → i.Meets (i.low * i.scale power) (below * i.unit power) := meets_iff.1
  have habove : aboveFits = true → i.Meets ((below + 1) * i.unit power) (i.high * i.scale power) :=
    meets_iff.1
  clear_value belowFits aboveFits
  cases hbelowFits : belowFits <;> cases haboveFits : aboveFits <;> rw [hbelowFits, haboveFits] at h
  case true.true =>
    have hor : n = below ∨ n = below + 1 := by
      cases tie <;> dsimp only at h <;> split_ifs at h <;> simp [← Option.some.inj h]
    rcases hor with rfl | rfl
    · exact .inl ⟨rfl, hbelow hbelowFits⟩
    · exact .inr ⟨rfl, habove haboveFits⟩
  case true.false => exact .inl (Option.some.inj h ▸ ⟨rfl, hbelow hbelowFits⟩)
  case false.true => exact .inr (Option.some.inj h ▸ ⟨rfl, habove haboveFits⟩)
  case false.false => cases h

theorem contains_of_multiple? {tie : Tie} (hlow : i.low < i.center) (hhigh : i.center < i.high)
    (h : i.multiple? tie power = some n) : i.Contains (value ⟨n, power⟩) := by
  have hdiv := Nat.div_add_mod (i.center * i.scale power) (i.unit power)
  have hrest := Nat.mod_lt (i.center * i.scale power) (i.unit_pos power)
  have hlowMul := Nat.mul_lt_mul_of_pos_right hlow (i.scale_pos power)
  have hhighMul := Nat.mul_lt_mul_of_pos_right hhigh (i.scale_pos power)
  rcases multiple?_eq_some h with ⟨rfl, hmeets⟩ | ⟨rfl, hmeets⟩
  · refine contains_of_meets hmeets (.inl ?_)
    rw [Nat.mul_comm]
    omega
  · refine contains_of_meets (.inl ?_) hmeets
    rw [Nat.add_mul, Nat.one_mul, Nat.mul_comm (_ / _)]
    omega

theorem contains_of_search {tie : Tie} {tries : Nat} {d : Decimal} (hlow : i.low < i.center)
    (hhigh : i.center < i.high) (h : i.search tie tries power = some d) : i.Contains d.value := by
  induction tries generalizing power with
  | zero => cases h
  | succ tries ih =>
    rw [search] at h
    cases hmultiple : i.multiple? tie power with
    | none => exact ih (by rwa [hmultiple] at h)
    | some n =>
      rw [hmultiple] at h
      obtain rfl := Option.some.inj h
      exact contains_of_multiple? hlow hhigh hmultiple

end Interval

/-! ## The shortest decimal -/

variable {format : Format} {m : Nat} {e : Int}

theorem Interval.ofBinary_low_lt (format : Format) (hm : 0 < m) (e : Int) :
    (ofBinary format m e).low < (ofBinary format m e).center := by
  rw [ofBinary]
  dsimp only
  split_ifs <;> omega

theorem Interval.ofBinary_lt_high (format : Format) (m : Nat) (e : Int) :
    (ofBinary format m e).center < (ofBinary format m e).high := by
  rw [ofBinary]
  dsimp only
  omega

/-- The digits of a binary number are the number itself. -/
theorem value_ofBinary (m : Nat) (e : Int) : (ofBinary m e).value = m * 2 ^ e := by
  rw [ofBinary]
  split
  · next he =>
    rw [value, zpow_zero, mul_one, Nat.pow_eq]
    push_cast
    rw [← zpow_natCast, Int.toNat_of_nonneg he]
  · next he =>
    have hpow : (10 : ℚ) ^ e = 5 ^ e * 2 ^ e := by rw [← mul_zpow]; norm_num
    have hinv : (5 : ℚ) ^ (-e).toNat * 5 ^ e = 1 := by
      rw [← zpow_natCast, ← zpow_add₀ (by norm_num), show ((-e).toNat : Int) + e = 0 by omega, zpow_zero]
    rw [value, Nat.pow_eq, hpow]
    push_cast
    rw [mul_assoc, ← mul_assoc (5 ^ _ : ℚ), hinv, one_mul]

theorem Interval.contains_center {i : Interval} (hlow : i.low < i.center) (hhigh : i.center < i.high) :
    i.Contains (i.center * 2 ^ i.exponent) := by
  have hplace : (0 : ℚ) < 2 ^ i.exponent := zpow_pos two_pos _
  have hlowLt := mul_lt_mul_of_pos_right (Nat.cast_lt.2 hlow : (i.low : ℚ) < i.center) hplace
  have hltHigh := mul_lt_mul_of_pos_right (Nat.cast_lt.2 hhigh : (i.center : ℚ) < i.high) hplace
  exact ⟨hlowLt.le, hltHigh.le, fun h => h.elim (fun h => absurd h hlowLt.ne') fun h => absurd h hltHigh.ne⟩

theorem Interval.center_ofBinary (format : Format) (m : Nat) (e : Int) :
    ((ofBinary format m e).center * 2 ^ (ofBinary format m e).exponent : ℚ) = m * 2 ^ e := by
  rw [ofBinary]
  dsimp only
  rw [two_zpow_sub_two]
  push_cast
  ring

/-- The shortest decimal rounds to the number. -/
theorem contains_shortest (format : Format) (tie : Tie) (hm : 0 < m) (e : Int) :
    (Interval.ofBinary format m e).Contains (shortest format tie m e).value := by
  have hlow := Interval.ofBinary_low_lt format hm e
  have hhigh := Interval.ofBinary_lt_high format m e
  unfold shortest
  extract_lets i start
  cases hsearch : i.search tie (format.mantissaBits / 3 + 8) start with
  | none =>
    rw [Option.getD_none, value_ofBinary, ← Interval.center_ofBinary format]
    exact Interval.contains_center hlow hhigh
  | some d => exact Interval.contains_of_search hlow hhigh hsearch

end StackMachine.Decimal

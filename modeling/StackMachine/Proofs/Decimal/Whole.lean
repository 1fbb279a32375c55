import StackMachine.Proofs.Decimal.Shortest
import StackMachine.Value.Display

/-!
Whole numbers among the numbers of a format.  The shortest decimal of a number has no digits behind the point
exactly if the number is whole: the search comes from coarse powers of ten, so it meets a whole number at a power
that is not negative, and no other number has a whole one in its interval.
-/

set_option autoImplicit false

namespace StackMachine.Decimal

open Float.Model (Format totalExponent)

variable {format : Format} {tie : Tie} {i : Interval} {m k : Nat} {e power : Int} {d : Decimal}

/-! ## Whole numbers -/

/-- A whole number counted in the last place, or in the parts of the unit. -/
theorem eq_natCast_iff : (m * 2 ^ e : ℚ) = k ↔ m * 2 ^ e.toNat = k * 2 ^ (-e).toNat := by
  have hpos : (2 : ℚ) ^ (-e).toNat ≠ 0 := pow_ne_zero _ two_ne_zero
  rw [zpow_eq_pow_div_pow two_ne_zero e, ← mul_div_assoc, div_eq_iff hpos]
  exact_mod_cast Iff.rfl

theorem isWholeBelow_iff {bound : Nat} :
    isWholeBelow bound m e = true ↔ ∃ k : Nat, (m * 2 ^ e : ℚ) = k ∧ k < bound := by
  simp only [eq_natCast_iff]
  unfold isWholeBelow
  split
  · next he =>
    simp only [Int.toNat_of_nonpos (Int.neg_nonpos_of_nonneg he), Nat.pow_zero, Nat.mul_one, decide_eq_true_eq]
    exact ⟨fun h => ⟨_, rfl, h⟩, fun ⟨k, hk, hlt⟩ => hk ▸ hlt⟩
  · next he =>
    have hunit := Nat.two_pow_pos (-e).toNat
    simp only [Int.toNat_of_nonpos (Int.le_of_lt (Int.not_le.1 he)), Nat.pow_zero, Nat.mul_one,
      Bool.and_eq_true, decide_eq_true_eq, Nat.pow_eq]
    constructor
    · rintro ⟨hmod, hlt⟩
      obtain ⟨k, hk⟩ := Nat.dvd_of_mod_eq_zero hmod
      refine ⟨k, hk.trans (Nat.mul_comm _ _), Nat.lt_of_mul_lt_mul_right (a := 2 ^ (-e).toNat) ?_⟩
      rwa [← Nat.mul_comm (2 ^ _) k, ← hk]
    · rintro ⟨k, hk, hlt⟩
      exact ⟨hk ▸ Nat.mul_mod_left _ _, hk ▸ Nat.mul_lt_mul_of_pos_right hlt hunit⟩

theorem totalExponent_pos (hm : 0 < m) (h : (m * 2 ^ e : ℚ) = k) : 0 < totalExponent m e := by
  have hk : 0 < k := Nat.pos_of_ne_zero fun hzero => by
    rw [hzero, Nat.cast_zero] at h
    exact (mul_pos (Nat.cast_pos.2 hm) (zpow_pos two_pos e)).ne' h
  have hlt := lt_two_zpow_totalExponent m one_pos e
  rw [Nat.cast_one, div_one, Nat.div_one, h] at hlt
  have hone : (2 : ℚ) ^ (0 : Int) ≤ k := by exact_mod_cast hk
  exact (zpow_lt_zpow_iff_right₀ one_lt_two).1 (hone.trans_lt hlt)

/-! ## Searching for a whole number -/

namespace Interval

/-- A centre that is itself a multiple of the power of ten is a hit. -/
theorem isSome_multiple?_of_dvd (hlow : i.low < i.center) (h : i.unit power ∣ i.center * i.scale power) :
    (i.multiple? tie power).isSome := by
  have hbelow : i.center * i.scale power / i.unit power * i.unit power = i.center * i.scale power :=
    Nat.div_mul_cancel h
  have hmeets : i.Meets (i.low * i.scale power) (i.center * i.scale power / i.unit power * i.unit power) := by
    rw [hbelow]
    exact .inl (Nat.mul_lt_mul_of_pos_right hlow (i.scale_pos power))
  unfold multiple?
  extract_lets scale unit below rest meets belowFits aboveFits
  have hfits : belowFits = true := meets_iff.2 hmeets
  rw [hfits]
  cases aboveFits with
  | false => rfl
  | true =>
    cases tie <;> dsimp only <;> split_ifs <;> rfl

theorem ne_zero_of_multiple?_eq_none (hzero : (i.multiple? tie 0).isSome) (h : i.multiple? tie power = none) :
    power ≠ 0 := by
  rintro rfl
  rw [h] at hzero
  cases hzero

/-- The search does not go below a hit at the power zero. -/
theorem exponent_nonneg_of_search {tries : Nat} (hzero : (i.multiple? tie 0).isSome) (hpower : 0 ≤ power)
    (h : i.search tie tries power = some d) : 0 ≤ d.exponent := by
  induction tries generalizing power with
  | zero => cases h
  | succ tries ih =>
    rw [search] at h
    cases hmultiple : i.multiple? tie power with
    | some n =>
      rw [hmultiple] at h
      obtain rfl := Option.some.inj h
      exact hpower
    | none =>
      rw [hmultiple] at h
      have hne := ne_zero_of_multiple?_eq_none hzero hmultiple
      exact ih (by omega) h

/-- The search comes to a hit at the power zero if it has tries enough. -/
theorem isSome_search {tries : Nat} (hzero : (i.multiple? tie 0).isSome) (hpower : 0 ≤ power)
    (htries : power < tries) : (i.search tie tries power).isSome := by
  induction tries generalizing power with
  | zero => omega
  | succ tries ih =>
    rw [search]
    cases hmultiple : i.multiple? tie power with
    | some n => rfl
    | none =>
      have hne := ne_zero_of_multiple?_eq_none hzero hmultiple
      exact ih (by omega) (by omega)

end Interval

variable (format tie) in
theorem isSome_multiple?_whole (hm : 0 < m) (h : (m * 2 ^ e : ℚ) = k) :
    ((Interval.ofBinary format m e).multiple? tie 0).isSome := by
  refine Interval.isSome_multiple?_of_dvd (Interval.ofBinary_low_lt format hm e) ⟨k, ?_⟩
  have hcenter := Interval.center_ofBinary format m e
  rw [h] at hcenter
  have hplaces := eq_natCast_iff.1 hcenter
  simp only [Interval.scale, Interval.unit, neg_zero, Int.toNat_zero, Nat.pow_zero, Nat.mul_one]
  rw [hplaces, Nat.mul_comm]

/-- A whole number has a decimal without digits behind the point. -/
theorem exponent_shortest_nonneg (hc : IsCanonical format m e) (h : (m * 2 ^ e : ℚ) = k) :
    0 ≤ (shortest format tie m e).exponent := by
  have hzero := isSome_multiple?_whole format tie hc.pos h
  have htotal := totalExponent_pos hc.pos h
  unfold shortest
  extract_lets i start
  have hstart : 0 ≤ start := by omega
  cases hsearch : i.search tie (format.mantissaBits / 3 + 8) start with
  | some d => exact Interval.exponent_nonneg_of_search hzero hstart hsearch
  | none =>
    rw [Option.getD_none, ofBinary]
    split
    · exact le_rfl
    · next he =>
      -- Below its last place a number of the format is small, so the search gets down to the power zero.
      have hlog : m.log2 < format.mantissaBits := (Nat.log2_lt hc.pos.ne').2 hc.lt
      have hdigits : totalExponent m e ≤ format.mantissaBits := by
        rw [totalExponent]
        omega
      have hsome : (i.search tie (format.mantissaBits / 3 + 8) start).isSome :=
        Interval.isSome_search hzero hstart (by omega)
      rw [hsearch] at hsome
      cases hsome

/-! ## Whole decimals -/

theorem value_of_nonneg (h : 0 ≤ d.exponent) :
    d.value = (d.significand * 10 ^ d.exponent.toNat : Nat) := by
  rw [value, ten_zpow, Int.toNat_of_nonpos (by omega : -d.exponent ≤ 0), pow_zero, div_one]
  push_cast
  rfl

/-- Only a whole number has a whole one in its interval, and if it has places behind the point that one is the
number itself. -/
theorem eq_of_contains_natCast (hm : 0 < m) (he : e < 0)
    (h : (Interval.ofBinary format m e).Contains k) : (m * 2 ^ e : ℚ) = k := by
  obtain ⟨hlow, hhigh, -⟩ := h.near hm
  obtain ⟨n, hn⟩ : ∃ n : Nat, (-e).toNat = n + 1 := ⟨(-e).toNat - 1, by omega⟩
  have hplace : (2 : ℚ) ^ e * 2 ^ (n + 1) = 1 := by
    rw [← hn, ← zpow_natCast, ← zpow_add₀ two_ne_zero, show e + ((-e).toNat : Int) = 0 by omega, zpow_zero]
  have hpos : (0 : ℚ) < 2 ^ (n + 1) := pow_pos two_pos _
  have hlow' : 2 * m ≤ 2 * k * 2 ^ (n + 1) + 1 := by
    have hmul := mul_le_mul_of_nonneg_right hlow hpos.le
    rw [mul_assoc, hplace, mul_one] at hmul
    have : (2 * m : ℚ) ≤ 2 * k * 2 ^ (n + 1) + 1 := by linarith
    exact_mod_cast this
  have hhigh' : 2 * k * 2 ^ (n + 1) ≤ 2 * m + 1 := by
    have hmul := mul_le_mul_of_nonneg_right hhigh hpos.le
    rw [mul_assoc (_ + _), hplace, mul_one] at hmul
    exact_mod_cast hmul
  rw [eq_natCast_iff, Int.toNat_of_nonpos he.le, Nat.pow_zero, Nat.mul_one, hn]
  rw [Nat.mul_assoc] at hlow' hhigh'
  omega

/-- The shortest decimal of a number is whole exactly if the number is. -/
theorem exponent_shortest_nonneg_iff (hc : IsCanonical format m e) :
    0 ≤ (shortest format tie m e).exponent ↔ ∃ k : Nat, (m * 2 ^ e : ℚ) = k := by
  constructor
  · intro h
    rcases lt_or_ge e 0 with he | he
    · have hcontains := contains_shortest format tie hc.pos e
      rw [value_of_nonneg h] at hcontains
      exact ⟨_, eq_of_contains_natCast hc.pos he hcontains⟩
    · exact ⟨m * 2 ^ e.toNat, by
        rw [eq_natCast_iff, Int.toNat_of_nonpos (by omega : -e ≤ 0), Nat.pow_zero, Nat.mul_one]⟩
  · rintro ⟨k, hk⟩
    exact exponent_shortest_nonneg hc hk

end StackMachine.Decimal

import StackMachine.Json.Decode
import StackMachine.Json.Writer
import StackMachine.Proofs.Decimal.Doubles
import StackMachine.Proofs.Text.Layout

/-!
Numerals that are written and read.  Each form in which a decimal is written reads as a decimal of the same
value, so words and finite doubles come back as they were.
-/

set_option autoImplicit false

namespace StackMachine

/-! ## Digits -/

/-- A number other than zero does not begin with a zero. -/
theorem head?_toDigits_ne {n : Nat} (hn : 0 < n) : (Nat.toDigits 10 n).head? ≠ some '0' := by
  induction n using Nat.strongRecOn with
  | _ n ih =>
    rw [Nat.toDigits_eq_if (by decide)]
    split
    · next hlt =>
      have hdigit : ∀ k < 10, 0 < k → [Nat.digitChar k].head? ≠ some '0' := by decide
      exact hdigit n hlt hn
    · next hge =>
      rw [List.head?_append_of_ne_nil _ Nat.toDigits_ne_nil]
      exact ih (n / 10) (by omega) (by omega)

/-- What can stand before the point of a numeral: digits, without a leading zero unless it is alone. -/
structure IsWhole (digits : List Char) : Prop where
  isDigit : ∀ c ∈ digits, c.isDigit = true
  ne_nil : digits ≠ []
  leading : digits.length = 1 ∨ digits.head? ≠ some '0'

theorem isWhole_toDigits (n : Nat) : IsWhole (Nat.toDigits 10 n) where
  isDigit := fun _ => Nat.isDigit_of_mem_toDigits (by decide) (by decide)
  ne_nil := Nat.toDigits_ne_nil
  leading := by
    rcases Nat.eq_zero_or_pos n with rfl | hpos
    · exact .inl (by rw [Nat.toDigits_zero, List.length_singleton])
    · exact .inr (head?_toDigits_ne hpos)

theorem IsWhole.guard {digits : List Char} (h : IsWhole digits) :
    (!digits.isEmpty && (digits.length = 1 || digits.head? != some '0')) = true := by
  simpa [h.ne_nil] using h.leading

theorem isDigit_of_mem_zeros {n : Nat} {c : Char} (h : c ∈ List.replicate n '0') : c.isDigit = true := by
  rw [List.eq_of_mem_replicate h]
  rfl

/-! ## Numerals without a sign -/

namespace Numeral

variable {whole fraction tail : List Char} {power : Option Int}

theorem unsigned?_whole (hwhole : IsWhole whole) (hdigit : ∀ c ∈ tail.head?, c.isDigit = false)
    (hpoint : tail.head? ≠ some '.') (hpower : Decimal.exponent? tail = some power) :
    unsigned? (whole ++ tail) = some (⟨Decimal.ofDigits whole, power.getD 0⟩, power.isNone) := by
  obtain ⟨htake, hdrop⟩ := Text.span_run hwhole.isDigit hdigit
  simp only [unsigned?, htake, hdrop, hwhole.guard, guard, if_true, Option.pure_def,
    Option.bind_eq_bind, Option.bind_some]
  split
  · exact absurd rfl hpoint
  · rw [hpower, Option.bind_some]

theorem unsigned?_fraction (hwhole : IsWhole whole) (hfraction : ∀ c ∈ fraction, c.isDigit = true)
    (hne : fraction ≠ []) (hdigit : ∀ c ∈ tail.head?, c.isDigit = false)
    (hpower : Decimal.exponent? tail = some power) :
    unsigned? (whole ++ '.' :: (fraction ++ tail))
      = some (⟨Decimal.ofDigits (whole ++ fraction), power.getD 0 - fraction.length⟩, false) := by
  have hpoint : ∀ c ∈ ('.' :: (fraction ++ tail)).head?, c.isDigit = false := by simp
  obtain ⟨htake, hdrop⟩ := Text.span_run hwhole.isDigit hpoint
  obtain ⟨htake', hdrop'⟩ := Text.span_run hfraction hdigit
  have hguard : (!fraction.isEmpty) = true := by simpa using hne
  simp only [unsigned?, htake, hdrop, htake', hdrop', hwhole.guard, hguard, guard, if_true,
    Option.pure_def, Option.bind_eq_bind, Option.bind_some, hpower]

/-- A numeral of digits alone. -/
theorem unsigned?_digits (hwhole : IsWhole whole) :
    unsigned? whole = some (⟨Decimal.ofDigits whole, 0⟩, true) := by
  rw [← List.append_nil whole, unsigned?_whole hwhole (by simp) (by simp) rfl, List.append_nil]
  rfl

/-- A numeral that ends with its fraction. -/
theorem unsigned?_point (hwhole : IsWhole whole) (hfraction : ∀ c ∈ fraction, c.isDigit = true)
    (hne : fraction ≠ []) :
    unsigned? (whole ++ '.' :: fraction)
      = some (⟨Decimal.ofDigits (whole ++ fraction), -fraction.length⟩, false) := by
  rw [← List.append_nil fraction, unsigned?_fraction hwhole hfraction hne (by simp) rfl, List.append_nil,
    Option.getD_none, zero_sub]

/-- Something that begins with a sign is no numeral without one. -/
theorem ofChars?_of_unsigned? {cs : List Char} {value : Decimal} {isWhole : Bool}
    (h : unsigned? cs = some (value, isWhole)) : ofChars? cs = some ⟨false, value, isWhole⟩ := by
  unfold ofChars?
  split
  · next rest =>
    have hnone : unsigned? ('-' :: rest) = none := by
      rw [unsigned?, List.takeWhile_cons_of_neg (by decide)]
      rfl
    rw [hnone] at h
    cases h
  · rw [h]
    rfl

theorem ofChars?_minus {cs : List Char} {value : Decimal} {isWhole : Bool}
    (h : unsigned? cs = some (value, isWhole)) : ofChars? ('-' :: cs) = some ⟨true, value, isWhole⟩ := by
  rw [ofChars?, h]
  rfl

end Numeral

/-! ## Decimals as they are written -/

namespace Decimal

open Numeral (unsigned?)

variable {d : Decimal}

theorem ofDigits_toDigits (n : Nat) : ofDigits (Nat.toDigits 10 n) = n :=
  Nat.ofDigitChars_ten_toDigits

theorem exponent?_sign (power : Int) :
    exponent? ('e' :: (if power < 0 then '-' else '+') :: Nat.toDigits 10 power.natAbs)
      = some (some power) := by
  have hall : (Nat.toDigits 10 power.natAbs).all Char.isDigit = true :=
    List.all_eq_true.2 (isWhole_toDigits power.natAbs).isDigit
  have hne : (Nat.toDigits 10 power.natAbs).isEmpty = false := by simp [Nat.toDigits_ne_nil]
  rw [exponent?, if_pos (.inl rfl)]
  split
  · simp only [signedInt?, splitSign, hall, hne, ofDigits_toDigits]
    simp only [Bool.not_true, Bool.or_false, Bool.false_eq_true, if_false, if_true, Option.map_some]
    rw [show -(power.natAbs : Int) = power by omega]
  · simp only [signedInt?, splitSign, hall, hne, ofDigits_toDigits]
    simp only [Bool.not_true, Bool.or_false, Bool.false_eq_true, if_false, Option.map_some]
    rw [show (power.natAbs : Int) = power by omega]

theorem head?_exponent {rest : List Char} : ∀ c ∈ ('e' :: rest).head?, c.isDigit = false := by
  simp

theorem unsigned?_scientific (d : Decimal) : unsigned? d.scientific = some (d, false) := by
  have hwhole := isWhole_toDigits d.significand
  have hvalue := ofDigits_toDigits d.significand
  have hpower := exponent?_sign d.leadingPower
  unfold scientific
  extract_lets mantissa sign
  have hlead : d.leadingPower = d.exponent + ((Nat.toDigits 10 d.significand).length - 1 : Nat) := rfl
  cases hdigits : Nat.toDigits 10 d.significand with
  | nil => exact absurd hdigits hwhole.ne_nil
  | cons first rest =>
    rw [hdigits] at hwhole hvalue hlead
    have hfirst : IsWhole [first] :=
      ⟨fun c hc => hwhole.isDigit c (by simp_all), List.cons_ne_nil _ _, .inl rfl⟩
    cases rest with
    | nil =>
      have hmantissa : mantissa = [first] := by simp only [mantissa, digits, hdigits]
      rw [hmantissa, Numeral.unsigned?_whole hfirst head?_exponent (by simp) hpower, hvalue, hlead]
      simp
    | cons second rest =>
      have hmantissa : mantissa = [first] ++ '.' :: second :: rest := by
        simp only [mantissa, digits, hdigits]
        rfl
      rw [hmantissa, List.append_assoc]
      refine (Numeral.unsigned?_fraction hfirst (fun c hc => hwhole.isDigit c (List.mem_cons_of_mem _ hc))
        (List.cons_ne_nil second rest) head?_exponent hpower).trans ?_
      rw [List.singleton_append, hvalue, hlead]
      simp

theorem isWhole_take {n k : Nat} (hn : 0 < n) (hk : 0 < k) : IsWhole ((Nat.toDigits 10 n).take k) where
  isDigit := fun c hc => (isWhole_toDigits n).isDigit c (List.mem_of_mem_take hc)
  ne_nil := fun h => by
    rcases List.take_eq_nil_iff.1 h with rfl | h
    · exact absurd hk (Nat.lt_irrefl 0)
    · exact Nat.toDigits_ne_nil h
  leading := .inr (by
    rw [List.head?_take, if_neg hk.ne']
    exact head?_toDigits_ne hn)

theorem unsigned?_positional (hd : 0 < d.significand) (he : d.exponent < 0) :
    unsigned? d.positional = some (d, false) := by
  unfold positional
  extract_lets ds places
  have hdigits : ∀ c ∈ ds, c.isDigit = true := (isWhole_toDigits d.significand).isDigit
  have hvalue : ofDigits ds = d.significand := ofDigits_toDigits d.significand
  have hplaces : -(places : Int) = d.exponent := by omega
  rw [if_neg (not_le.2 he)]
  split
  · next hinside =>
    have hwhole : IsWhole (ds.take (ds.length - places)) := isWhole_take hd (by omega)
    have hlength : (ds.drop (ds.length - places)).length = places := by
      rw [List.length_drop]
      omega
    rw [Numeral.unsigned?_point hwhole (fun c hc => hdigits c (List.mem_of_mem_drop hc))
      (List.ne_nil_of_length_pos (by omega)), List.take_append_drop, hvalue, hlength, hplaces]
  · next houtside =>
    have hwhole : IsWhole ['0'] := ⟨by simp, List.cons_ne_nil _ _, .inl rfl⟩
    have hfraction : ∀ c ∈ List.replicate (places - ds.length) '0' ++ ds, c.isDigit = true :=
      List.forall_mem_append.2 ⟨fun _ => isDigit_of_mem_zeros, hdigits⟩
    have hlength : (List.replicate (places - ds.length) '0' ++ ds).length = places := by
      rw [List.length_append, List.length_replicate]
      omega
    have hzeros : ofDigits (['0'] ++ (List.replicate (places - ds.length) '0' ++ ds)) = d.significand := by
      rw [ofDigits, Nat.ofDigitChars_append, Nat.ofDigitChars_append, Nat.ofDigitChars_replicate_zero]
      exact hvalue
    have hread := Numeral.unsigned?_point hwhole hfraction (List.ne_nil_of_length_pos (by omega))
    rwa [hzeros, hlength, hplaces] at hread

theorem toDigits_mul_ten {n : Nat} (hn : 0 < n) : Nat.toDigits 10 (n * 10) = Nat.toDigits 10 n ++ ['0'] := by
  rw [Nat.toDigits_eq_if (by decide), if_neg (by omega), Nat.mul_div_cancel n (by decide), Nat.mul_mod_left]
  rfl

/-- Zeros are written for an exponent that is not negative. -/
theorem positional_of_nonneg (hd : 0 < d.significand) (he : 0 ≤ d.exponent) :
    d.positional = Nat.toDigits 10 (d.significand * 10 ^ d.exponent.toNat) := by
  have hzeros : ∀ k, Nat.toDigits 10 d.significand ++ List.replicate k '0'
      = Nat.toDigits 10 (d.significand * 10 ^ k) := fun k => by
    induction k with
    | zero => rw [Nat.pow_zero, Nat.mul_one, List.replicate_zero, List.append_nil]
    | succ k ih =>
      rw [List.replicate_succ', ← List.append_assoc, ih, Nat.pow_succ, ← Nat.mul_assoc,
        toDigits_mul_ten (Nat.mul_pos hd (Nat.pow_pos (by decide)))]
  unfold positional
  extract_lets ds
  rw [if_pos he]
  exact hzeros _

/-- The point is written behind the zeros that stand for the exponent. -/
theorem unsigned?_positional_point (hd : 0 < d.significand) (he : 0 ≤ d.exponent) :
    unsigned? (d.positional ++ ['.', '0'])
      = some (⟨d.significand * 10 ^ d.exponent.toNat * 10, -1⟩, false) := by
  have hpos : 0 < d.significand * 10 ^ d.exponent.toNat := Nat.mul_pos hd (Nat.pow_pos (by decide))
  rw [positional_of_nonneg hd he, Numeral.unsigned?_point (isWhole_toDigits _) (by simp) (List.cons_ne_nil _ _),
    ← toDigits_mul_ten hpos, ofDigits_toDigits]
  rfl

/-- Every form in which a decimal is written reads as a decimal of the same value. -/
theorem exists_unsigned? (hd : 0 < d.significand) (lowest highest : Int) :
    ∃ d', unsigned? (if d.leadingPower < lowest ∨ highest < d.leadingPower then d.scientific
        else if 0 ≤ d.exponent then d.positional ++ ['.', '0'] else d.positional) = some (d', false)
      ∧ d'.value = d.value := by
  split
  · exact ⟨d, unsigned?_scientific d, rfl⟩
  · split
    · next he =>
      refine ⟨_, unsigned?_positional_point hd he, ?_⟩
      rw [value, value, ten_zpow d.exponent, Int.toNat_of_nonpos (by omega : -d.exponent ≤ 0), zpow_neg_one]
      push_cast
      ring
    · next he => exact ⟨d, unsigned?_positional hd (not_le.1 he), rfl⟩

end Decimal

/-! ## Numbers as JSON -/

namespace Json

open Float.Model (UnpackedFloat)

/-- Zero is written with its sign. -/
theorem ofUnpacked_zero (style : NumeralStyle) (sign : UnpackedFloat.Sign) :
    ∃ numeral, ofUnpacked style (.zero sign) = .number numeral
      ∧ Numeral.ofChars? numeral.toList = some ⟨Decimal.isNegative sign, ⟨0, -1⟩, false⟩ := by
  cases sign with
  | positive => exact ⟨"0.0", rfl, by decide⟩
  | negative => exact ⟨"-0.0", rfl, by decide⟩

/-- A number of the format is written as a numeral of its sign and of a value that rounds to it. -/
theorem ofUnpacked_finite (style : NumeralStyle) {b : BitVec style.format.numBits} {sign : UnpackedFloat.Sign}
    {m : Nat} {e : Int} {hm : 0 < m} (hb : UnpackedFloat.unpack style.format b = .finite sign m e hm) :
    ∃ numeral d, ofUnpacked style (.finite sign m e hm) = .number numeral
      ∧ Numeral.ofChars? numeral.toList = some ⟨Decimal.isNegative sign, d, false⟩
      ∧ (Decimal.Interval.ofBinary style.format m e).Contains d.value := by
  have hcontains := Decimal.contains_shortest style.format .even hm e
  have hpos := (Decimal.packs_of_unpack hb).isCanonical.significand_pos hcontains
  obtain ⟨d, hread, hvalue⟩ := Decimal.exists_unsigned? hpos style.lowest style.highest
  rw [← hvalue] at hcontains
  cases sign with
  | positive =>
    refine ⟨_, d, rfl, ?_, hcontains⟩
    rw [String.toList_ofList]
    exact Numeral.ofChars?_of_unsigned? hread
  | negative =>
    refine ⟨_, d, rfl, ?_, hcontains⟩
    rw [String.toList_ofList]
    exact Numeral.ofChars?_minus hread

/-- A finite double is written as a numeral that reads as the double. -/
theorem ofFloat_of_isFinite {x : Float} (h : x.isFinite = true) :
    ∃ numeral n, ofFloat x = .number numeral ∧ Numeral.ofChars? numeral.toList = some n
      ∧ n.float? = some x := by
  have hfloat : ∀ n : Numeral, n.value.toSignedFloat n.negative = x → n.float? = some x := fun n hn => by
    rw [Numeral.float?, hn]
    exact if_pos h
  rw [ofFloat]
  cases hx : x.toModel.unpack with
  | notANumber => rw [Float.isFinite, Float.Model.isFinite, hx] at h; cases h
  | infinity sign => rw [Float.isFinite, Float.Model.isFinite, hx] at h; cases h
  | zero sign =>
    obtain ⟨numeral, hwritten, hread⟩ := ofUnpacked_zero .double sign
    exact ⟨numeral, _, hwritten, hread, hfloat _ (Decimal.toSignedFloat_of_zero hx rfl)⟩
  | finite sign m e hm =>
    obtain ⟨numeral, d, hwritten, hread, hcontains⟩ := ofUnpacked_finite .double hx
    exact ⟨numeral, _, hwritten, hread, hfloat _ (Decimal.toSignedFloat_of_contains hx hcontains)⟩

/-- A finite single is written as a numeral. -/
theorem ofSingle_of_isFinite {x : Float32} (h : x.isFinite = true) :
    ∃ numeral n, ofSingle x = .number numeral ∧ Numeral.ofChars? numeral.toList = some n := by
  rw [ofSingle]
  cases hx : x.toModel.unpack with
  | notANumber => rw [Float32.isFinite, Float32.Model.isFinite, hx] at h; cases h
  | infinity sign => rw [Float32.isFinite, Float32.Model.isFinite, hx] at h; cases h
  | zero sign =>
    obtain ⟨numeral, hwritten, hread⟩ := ofUnpacked_zero .single sign
    exact ⟨numeral, _, hwritten, hread⟩
  | finite sign m e hm =>
    obtain ⟨numeral, d, hwritten, hread, -⟩ := ofUnpacked_finite .single hx
    exact ⟨numeral, _, hwritten, hread⟩

/-- The other doubles are written as `null`. -/
theorem ofFloat_of_not_isFinite {x : Float} (h : x.isFinite = false) : ofFloat x = .null := by
  rw [Float.isFinite, Float.Model.isFinite] at h
  rw [ofFloat]
  cases hx : x.toModel.unpack with
  | notANumber => rfl
  | infinity sign => rfl
  | zero sign => rw [hx] at h; cases h
  | finite sign m e hm => rw [hx] at h; cases h

/-- The other singles are written as `null`. -/
theorem ofSingle_of_not_isFinite {x : Float32} (h : x.isFinite = false) : ofSingle x = .null := by
  rw [Float32.isFinite, Float32.Model.isFinite] at h
  rw [ofSingle]
  cases hx : x.toModel.unpack with
  | notANumber => rfl
  | infinity sign => rfl
  | zero sign => rw [hx] at h; cases h
  | finite sign m e hm => rw [hx] at h; cases h

theorem ofInt?_toInt (w : Word) : Word.ofInt? w.toInt = some w := by
  have hlow := w.le_toInt
  have hhigh := w.toInt_lt
  rw [Word.ofInt?, if_pos ⟨by rw [Word.lowest]; omega, by rw [Word.highest]; omega⟩, Int64.ofInt_toInt]

/-- An integer is written as a numeral that reads as the integer. -/
theorem ofInt_eq (n : Int) :
    ∃ numeral value, ofInt n = .number numeral ∧ Numeral.ofChars? numeral.toList = some value
      ∧ value.int? = some n := by
  have hread (k : Nat) : Numeral.unsigned? (Nat.toDigits 10 k) = some (⟨k, 0⟩, true) := by
    rw [Numeral.unsigned?_digits (isWhole_toDigits k), Decimal.ofDigits_toDigits]
  cases n with
  | ofNat k =>
    refine ⟨k.repr, ⟨false, ⟨k, 0⟩, true⟩, rfl, ?_, rfl⟩
    rw [Nat.toList_repr]
    exact Numeral.ofChars?_of_unsigned? (hread k)
  | negSucc k =>
    refine ⟨"-" ++ (k + 1).repr, ⟨true, ⟨k + 1, 0⟩, true⟩, rfl, ?_, ?_⟩
    · rw [String.toList_append, Nat.toList_repr]
      exact Numeral.ofChars?_minus (hread (k + 1))
    · rfl

end Json

end StackMachine

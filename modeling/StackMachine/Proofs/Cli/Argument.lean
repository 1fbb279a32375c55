import StackMachine.Cli.Argument
import StackMachine.Proofs.Decimal.Whole
import StackMachine.Proofs.Json.Lexing
import StackMachine.Proofs.Json.Numerals

/-!
Numbers that are shown and given back as arguments.  The text of a number reads as that number, whether the
reader looks for an integer or for a real.  Which of the two an argument is depends on the point: it is missing
from the text of a whole real from `1e15` on, and below `2 ^ 63` such a text is taken for an integer.
-/

set_option autoImplicit false

namespace StackMachine.Cli

open Float.Model (Format UnpackedFloat)
open Float.Model.UnpackedFloat (Sign)
open Decimal (isNegative IsCanonical shortest Interval)

variable {cs : List Char} {d : Decimal} {isWhole : Bool} {sign : Sign} {x : Float} {m k : Nat} {e : Int} {hm : 0 < m}

/-! ## Digits behind a sign -/

/-- Every numeral is a real of the same value. -/
theorem unsignedReal?_of_unsigned? (h : Numeral.unsigned? cs = some (d, isWhole)) : unsignedReal? cs = some d := by
  unfold Numeral.unsigned? at h
  obtain ⟨_, hguard, h⟩ := Option.bind_eq_some_iff.1 h
  have hwhole : (cs.takeWhile Char.isDigit).isEmpty = false := by
    cases hempty : (cs.takeWhile Char.isDigit).isEmpty with
    | false => rfl
    | true =>
      rw [hempty] at hguard
      cases hguard
  unfold unsignedReal?
  extract_lets whole rest
  have hrest : rest = cs.dropWhile Char.isDigit := rfl
  clear_value rest
  rw [← hrest] at h
  split at h
  · obtain ⟨_, -, h⟩ := Option.bind_eq_some_iff.1 h
    obtain ⟨power, hpower, h⟩ := Option.bind_eq_some_iff.1 h
    cases h
    simp only [whole, hwhole, hpower, guard, Bool.false_and, Bool.not_false, if_true,
      Option.pure_def, Option.bind_eq_bind, Option.bind_some]
  · obtain ⟨power, hpower, h⟩ := Option.bind_eq_some_iff.1 h
    cases h
    simp only [whole, hwhole, hpower, guard, Bool.false_and, Bool.not_false, if_true,
      Option.pure_def, Option.bind_eq_bind, Option.bind_some, List.append_nil, List.length_nil, Nat.cast_zero,
      sub_zero]

theorem splitSign_signed (h : ∃ c ∈ cs.head?, c.isDigit = true) :
    Decimal.splitSign ((signText sign).toList ++ cs) = (isNegative sign, cs) := by
  cases sign with
  | negative => rfl
  | positive =>
    obtain ⟨c, hc, hdigit⟩ := h
    change Decimal.splitSign cs = (false, cs)
    unfold Decimal.splitSign
    split
    · cases hc; cases hdigit
    · cases hc; cases hdigit
    · rfl

theorem toList_signed (sign : Sign) (cs : List Char) :
    (signText sign ++ String.ofList cs).toList = (signText sign).toList ++ cs := by
  rw [String.toList_append, String.toList_ofList]

theorem toLower_of_isDigit {c : Char} (h : c.isDigit = true) : c.toLower = c := by
  have hle : c.val ≤ 57 := (of_decide_eq_true (Bool.and_eq_true_iff.1 h).2)
  exact dif_neg fun hge => absurd (UInt32.le_trans hge.1 hle) (by decide)

/-- A numeral behind a sign is a real with the sign. -/
theorem real?_signed (h : Numeral.unsigned? cs = some (d, isWhole)) :
    real? (signText sign ++ String.ofList cs) = some (d.toSignedFloat (isNegative sign)) := by
  have hhead := (Json.collected_of_unsigned? h).1
  obtain ⟨c, hc, hdigit⟩ := hhead
  have hname : ∀ name : String, (∀ c ∈ name.toList.head?, c.isDigit = false) →
      String.ofList (cs.map Char.toLower) ≠ name := by
    rintro name hletter rfl
    rw [String.toList_ofList, List.head?_map] at hletter
    have := hletter c (Option.mem_map.2 ⟨c, hc, toLower_of_isDigit hdigit⟩)
    rw [hdigit] at this
    cases this
  unfold real?
  rw [toList_signed, splitSign_signed ⟨c, hc, hdigit⟩]
  dsimp only
  split
  · next h => exact absurd h (hname _ (by simp))
  · next h => exact absurd h (hname _ (by simp))
  · next h => exact absurd h (hname _ (by simp))
  · rw [unsignedReal?_of_unsigned? h]
    rfl

/-- The integer that the digits of `n` write behind a sign. -/
def signed (sign : Sign) (n : Nat) : Int := if isNegative sign then -(n : Int) else n

theorem word?_signed (sign : Sign) (n : Nat) :
    word? (signText sign ++ String.ofList (Nat.toDigits 10 n)) = Word.ofInt? (signed sign n) := by
  have hwhole := isWhole_toDigits n
  have hhead : ∃ c ∈ (Nat.toDigits 10 n).head?, c.isDigit = true := by
    cases hdigits : Nat.toDigits 10 n with
    | nil => exact absurd hdigits hwhole.ne_nil
    | cons c cs => exact ⟨c, rfl, hwhole.isDigit c (by rw [hdigits]; exact List.mem_cons_self)⟩
  have hdigits : ((Nat.toDigits 10 n).isEmpty || !(Nat.toDigits 10 n).all Char.isDigit) = false := by
    rw [List.all_eq_true.2 hwhole.isDigit, List.isEmpty_eq_false_iff.2 hwhole.ne_nil]
    rfl
  rw [word?, Decimal.signedInt?, toList_signed, splitSign_signed hhead]
  dsimp only
  rw [hdigits, Decimal.ofDigits_toDigits]
  rfl

/-- A text with a point is no integer. -/
theorem word?_signed_point (h : Numeral.unsigned? cs = some (d, isWhole)) (hpoint : '.' ∈ cs) :
    word? (signText sign ++ String.ofList cs) = none := by
  have hdigits : cs.all Char.isDigit = false := List.all_eq_false.2 ⟨'.', hpoint, by decide⟩
  rw [word?, Decimal.signedInt?, toList_signed, splitSign_signed (Json.collected_of_unsigned? h).1]
  dsimp only
  rw [hdigits, Bool.not_false, Bool.or_true]
  rfl

theorem ofInt?_eq_none {n : Int} (h : n < Word.lowest ∨ Word.highest < n) : Word.ofInt? n = none := by
  rw [Word.ofInt?, if_neg]
  rintro ⟨hlow, hhigh⟩
  omega

theorem argumentValue_of_word? {text : String} {n : Word} (h : word? text = some n) :
    argumentValue text = .int n := by
  rw [argumentValue, h]

theorem argumentValue_of_real? {text : String} (h : word? text = none) (hreal : real? text = some x) :
    argumentValue text = .real x := by
  rw [argumentValue, h, hreal]

/-! ## Integers -/

/-- A word is shown by the digits of its absolute value behind its sign. -/
theorem decimal_eq {w : Word} {n : Nat} (hw : w.toInt = signed sign n) (hn : sign = .negative → 0 < n) :
    Word.decimal w = signText sign ++ String.ofList (Nat.toDigits 10 n) := by
  apply String.toList_inj.1
  rw [toList_signed, Word.decimal, hw]
  cases sign with
  | positive => exact Nat.toList_repr
  | negative =>
    obtain ⟨j, rfl⟩ := Nat.exists_eq_succ_of_ne_zero (hn rfl).ne'
    exact (String.toList_append (s := "-")).trans (congrArg _ Nat.toList_repr)

theorem word?_decimal (w : Word) : word? (Word.decimal w) = some w := by
  obtain ⟨sign, n, hw, hn⟩ : ∃ sign n, w.toInt = signed sign n ∧ (sign = .negative → 0 < n) := by
    rcases lt_or_ge w.toInt 0 with hneg | hpos
    · exact ⟨.negative, w.toInt.natAbs, by rw [signed, isNegative, if_pos rfl]; omega, fun _ => by omega⟩
    · exact ⟨.positive, w.toInt.toNat, by rw [signed, isNegative, if_neg (by decide)]; omega, fun h => by cases h⟩
  rw [decimal_eq hw hn, word?_signed, ← hw, Json.ofInt?_toInt]

/-! ## Reals -/

/-- The absolute value of a finite number. -/
def magnitude? : UnpackedFloat → Option ℚ
  | .zero _ => some 0
  | .finite _ m e _ => some (m * 2 ^ e)
  | .infinity _ | .notANumber => none

/-- A whole number that is shown without a point and lies among the words. -/
def IsLongWhole (x : Float) : Prop :=
  ∃ k : Nat, magnitude? x.toModel.unpack = some (k : ℚ) ∧ 1000000000000000 ≤ k ∧ k < 0x8000000000000000

theorem isLongWhole_of_finite (hx : x.toModel.unpack = .finite sign m e hm) :
    IsLongWhole x ↔ ∃ k : Nat, (m * 2 ^ e : ℚ) = k ∧ 1000000000000000 ≤ k ∧ k < 0x8000000000000000 := by
  rw [IsLongWhole, hx]
  simp only [magnitude?, Option.some.injEq]

theorem realText_of_finite (hx : x.toModel.unpack = .finite sign m e hm) :
    realText x = signText sign ++ String.ofList ((shortest Format.binary64 .up m e).positional
      ++ if isWholeBelow 1000000000000000 m e then ['.', '0'] else []) := by
  rw [realText, hx, floatText, String.append_assoc, String.ofList_append]
  split <;> rfl

theorem point_mem_positional (h : d.exponent < 0) : '.' ∈ d.positional := by
  unfold Decimal.positional
  extract_lets ds places
  rw [if_neg (not_le.2 h)]
  split
  · exact List.mem_append_right _ List.mem_cons_self
  · exact List.mem_cons_of_mem _ List.mem_cons_self

/-- The forms in which a finite double other than zero is shown: with a point, or as a long run of digits. -/
inductive Shows (x : Float) (sign : Sign) (m : Nat) (e : Int) : Prop
  | point {cs : List Char} {d : Decimal} (htext : realText x = signText sign ++ String.ofList cs)
    (hread : Numeral.unsigned? cs = some (d, false)) (hpoint : '.' ∈ cs)
    (hvalue : (Interval.ofBinary Format.binary64 m e).Contains d.value) (hlong : ¬ IsLongWhole x)
  | digits {n k : Nat} (htext : realText x = signText sign ++ String.ofList (Nat.toDigits 10 n))
    (hvalue : (n : ℚ) = (shortest Format.binary64 .up m e).value) (hn : 0 < n)
    (hk : (m * 2 ^ e : ℚ) = k) (hlarge : 1000000000000000 ≤ k)

theorem shows_of_finite (hx : x.toModel.unpack = .finite sign m e hm) : Shows x sign m e := by
  have hc := (Decimal.packs_of_unpack hx).isCanonical
  have hcontains := Decimal.contains_shortest Format.binary64 .up hc.pos e
  have hpos := hc.significand_pos hcontains
  have hwholeIff : 0 ≤ (shortest Format.binary64 .up m e).exponent ↔ _ := Decimal.exponent_shortest_nonneg_iff hc
  have htext := realText_of_finite hx
  cases hbelow : isWholeBelow 1000000000000000 m e with
  | true =>
    obtain ⟨k, hk, hlt⟩ := Decimal.isWholeBelow_iff.1 hbelow
    have hexponent := hwholeIff.2 ⟨k, hk⟩
    rw [hbelow, if_pos rfl] at htext
    refine .point htext (Decimal.unsigned?_positional_point hpos hexponent)
      (List.mem_append_right _ List.mem_cons_self) ?_ fun hlong => ?_
    · rw [Decimal.value_of_nonneg hexponent] at hcontains
      rw [Decimal.value, zpow_neg_one]
      push_cast at hcontains ⊢
      rwa [mul_inv_cancel_right₀ (by norm_num)]
    · obtain ⟨k', hk', hge, -⟩ := (isLongWhole_of_finite hx).1 hlong
      have heq : k = k' := by exact_mod_cast hk.symm.trans hk'
      omega
  | false =>
    rw [hbelow, if_neg Bool.false_ne_true, List.append_nil] at htext
    rcases lt_or_ge (shortest Format.binary64 .up m e).exponent 0 with hexponent | hexponent
    · refine .point htext (Decimal.unsigned?_positional hpos hexponent) (point_mem_positional hexponent)
        hcontains fun hlong => ?_
      obtain ⟨k, hk, -⟩ := (isLongWhole_of_finite hx).1 hlong
      exact absurd (hwholeIff.2 ⟨k, hk⟩) (not_le.2 hexponent)
    · obtain ⟨k, hk⟩ := hwholeIff.1 hexponent
      rw [Decimal.positional_of_nonneg hpos hexponent] at htext
      refine .digits htext (Decimal.value_of_nonneg hexponent).symm (Nat.mul_pos hpos (Nat.pow_pos (by decide))) hk
        (not_lt.1 fun hlt => ?_)
      rw [Decimal.isWholeBelow_iff.2 ⟨k, hk, hlt⟩] at hbelow
      cases hbelow

theorem Shows.real?_eq (h : Shows x sign m e) (hx : x.toModel.unpack = .finite sign m e hm) :
    real? (realText x) = some x := by
  cases h with
  | point htext hread hpoint hvalue hlong =>
    rw [htext, real?_signed hread, Decimal.toSignedFloat_of_contains hx hvalue]
  | @digits n k htext hvalue hn hk hlarge =>
    have hread := Numeral.unsigned?_digits (isWhole_toDigits n)
    have hcontains := Decimal.contains_shortest Format.binary64 .up hm e
    have hsame : Decimal.value ⟨n, 0⟩ = (shortest Format.binary64 .up m e).value := by
      rw [← hvalue, Decimal.value, zpow_zero, mul_one]
    rw [Decimal.ofDigits_toDigits] at hread
    rw [htext, real?_signed hread, Decimal.toSignedFloat_of_contains hx (hsame ▸ hcontains)]

/-! ## The largest words -/

theorem shortest_two_pow_63 : shortest Format.binary64 .up 4503599627370496 11 = ⟨9223372036854776, 3⟩ := by
  decide +kernel

/-- The last place of a whole number tells whether it is below `2 ^ 63`. -/
theorem exponent_le_ten_iff (hc : IsCanonical Format.binary64 m e) (hk : (m * 2 ^ e : ℚ) = k) :
    e ≤ 10 ↔ k < 0x8000000000000000 := by
  have hlt : (m : ℚ) < 9007199254740992 := by exact_mod_cast hc.lt
  have hpos : (0 : ℚ) < m := by exact_mod_cast hc.pos
  constructor
  · intro he
    have hpow : (2 : ℚ) ^ e ≤ 2 ^ (10 : Int) := zpow_le_zpow_right₀ one_le_two he
    have hle : (k : ℚ) < 9007199254740992 * 2 ^ (10 : Int) := by
      rw [← hk]
      exact (mul_le_mul_of_nonneg_left hpow hpos.le).trans_lt (mul_lt_mul_of_pos_right hlt (by norm_num))
    norm_num at hle
    exact_mod_cast hle
  · intro hsmall
    by_contra he
    have hfull : 4503599627370496 ≤ m := hc.full fun h => by
      rw [h] at he
      exact he (by decide)
    have hpow : (2 : ℚ) ^ (11 : Int) ≤ 2 ^ e := zpow_le_zpow_right₀ one_le_two (by omega)
    have hge : (4503599627370496 : ℚ) * 2 ^ (11 : Int) ≤ k := by
      rw [← hk]
      exact mul_le_mul (by exact_mod_cast hfull) hpow (by norm_num) hpos.le
    norm_num at hge
    have : 9223372036854775808 ≤ k := by exact_mod_cast hge
    omega

/-- A decimal for a whole number below `2 ^ 63` lies below `2 ^ 63` too. -/
theorem lt_two_pow_63 {n : Nat} (hc : IsCanonical Format.binary64 m e) (he : e ≤ 10)
    (hcontains : (Interval.ofBinary Format.binary64 m e).Contains n) : n < 0x8000000000000000 := by
  have hpow : (2 : ℚ) ^ (e + Format.binary64.mantissaBits) ≤ 2 ^ (63 : Int) :=
    zpow_le_zpow_right₀ one_le_two (by rw [show Format.binary64.mantissaBits = 53 from rfl]; omega)
  have hlt := (hc.lt_two_zpow hcontains).trans_le hpow
  norm_num at hlt
  exact_mod_cast hlt

/-- The decimal for a number from `2 ^ 63` on lies above `2 ^ 63`. -/
theorem two_pow_63_lt {n : Nat} (hc : IsCanonical Format.binary64 m e) (he : 10 < e)
    (hn : (n : ℚ) = (shortest Format.binary64 .up m e).value) : 0x8000000000000000 < n := by
  have hcontains := Decimal.contains_shortest Format.binary64 .up hc.pos e
  have hfull : 4503599627370496 ≤ m := hc.full fun h => by
    rw [h] at he
    exact absurd he (by decide)
  by_cases hpower : m = 4503599627370496 ∧ e = 11
  · -- The decimal of `2 ^ 63` itself lies above it.
    obtain ⟨rfl, rfl⟩ := hpower
    rw [shortest_two_pow_63, Decimal.value] at hn
    norm_num at hn
    have hn' : n = 9223372036854776000 := by exact_mod_cast hn
    omega
  · rw [← hn] at hcontains
    have hlow := (hcontains.near hc.pos).1
    have hmantissa : (9007199254740991 : ℚ) * 2 ^ (12 : Int) ≤ (2 * m - 1) * 2 ^ e
        ∨ (9007199254740993 : ℚ) * 2 ^ (11 : Int) ≤ (2 * m - 1) * 2 ^ e := by
      have hm : (4503599627370496 : ℚ) ≤ m := by exact_mod_cast hfull
      rcases eq_or_ne e 11 with rfl | hne
      · have hm' : (4503599627370497 : ℚ) ≤ m := by
          have : 4503599627370497 ≤ m := by omega
          exact_mod_cast this
        exact .inr (mul_le_mul_of_nonneg_right (by linarith) (by norm_num))
      · have hpow : (2 : ℚ) ^ (12 : Int) ≤ 2 ^ e := zpow_le_zpow_right₀ one_le_two (by omega)
        exact .inl (mul_le_mul (by linarith) hpow (by norm_num) (by linarith))
    have hgt : (9223372036854775808 : ℚ) < n := by
      norm_num at hmantissa
      rcases hmantissa with h | h <;> linarith
    exact_mod_cast hgt

/-- The digits that are shown for a whole number are a word with either sign, or with neither. -/
theorem digits_below {n : Nat} (hc : IsCanonical Format.binary64 m e)
    (hn : (n : ℚ) = (shortest Format.binary64 .up m e).value) (hk : (m * 2 ^ e : ℚ) = k) :
    k < 0x8000000000000000 ∧ n < 0x8000000000000000 ∨ 0x8000000000000000 ≤ k ∧ 0x8000000000000000 < n := by
  have hexponent := exponent_le_ten_iff hc hk
  rcases lt_or_ge k 0x8000000000000000 with hsmall | hlarge
  · have hcontains := Decimal.contains_shortest Format.binary64 .up hc.pos e
    rw [← hn] at hcontains
    exact .inl ⟨hsmall, lt_two_pow_63 hc (hexponent.2 hsmall) hcontains⟩
  · have he : 10 < e := not_le.1 fun he => absurd (hexponent.1 he) (not_lt.2 hlarge)
    exact .inr ⟨hlarge, two_pow_63_lt hc he hn⟩

/-! ## Shown numbers as arguments -/

/-- What a shown double is taken for: the double, or if it is a long whole number the word that is shown like it. -/
inductive Taken (x : Float) : Prop
  | real (hlong : ¬ IsLongWhole x) (h : argumentValue (realText x) = .real x)
  | int {w : Word} (hlong : IsLongWhole x) (h : argumentValue (realText x) = .int w)
    (htext : Word.decimal w = realText x)

theorem Shows.taken (h : Shows x sign m e) (hx : x.toModel.unpack = .finite sign m e hm) : Taken x := by
  have hreal := h.real?_eq hx
  cases h with
  | point htext hread hpoint hvalue hlong =>
    exact .real hlong (argumentValue_of_real? (by rw [htext, word?_signed_point hread hpoint]) hreal)
  | @digits n k htext hvalue hn hk hlarge =>
    have hword := word?_signed sign n
    rw [← htext] at hword
    rcases digits_below (Decimal.packs_of_unpack hx).isCanonical hvalue hk with ⟨hsmall, hlt⟩ | ⟨hbig, hlt⟩
    · have hrange : Word.lowest ≤ signed sign n ∧ signed sign n ≤ Word.highest := by
        rw [Word.lowest, Word.highest, signed]
        split <;> omega
      have htoInt : (Int64.ofInt (signed sign n)).toInt = signed sign n := by
        rw [Word.lowest, Word.highest] at hrange
        exact Int64.toInt_ofInt_of_le (by omega) (by omega)
      rw [Word.ofInt?, if_pos hrange] at hword
      refine .int ((isLongWhole_of_finite hx).2 ⟨k, hk, hlarge, hsmall⟩) (argumentValue_of_word? hword) ?_
      rw [htext, decimal_eq htoInt fun _ => hn]
    · refine .real (fun hlong => ?_) (argumentValue_of_real? (hword.trans (ofInt?_eq_none ?_)) hreal)
      · obtain ⟨k', hk', -, hsmall⟩ := (isLongWhole_of_finite hx).1 hlong
        have heq : k = k' := by exact_mod_cast hk.symm.trans hk'
        omega
      · rw [Word.lowest, Word.highest, signed]
        split <;> omega

theorem eq_ofModel_of_unpack {u : UnpackedFloat} (hx : x.toModel.unpack = u) : x = .ofModel (.pack u) := by
  rw [← hx, Decimal.ofModel_pack_unpack]

/-- The doubles that are no finite numbers other than zero have short texts with a point or a name in them. -/
theorem taken_of_short {u : UnpackedFloat} (hu : x.toModel.unpack = u)
    (hk : ∀ k : Nat, magnitude? u = some (k : ℚ) → k = 0) (hword : word? (realText x) = none)
    (hreal : real? (realText x) = some x) : Taken x := by
  refine .real ?_ (argumentValue_of_real? hword hreal)
  rintro ⟨k, hmagnitude, hge, -⟩
  rw [hu] at hmagnitude
  have := hk k hmagnitude
  omega

/-- A double that is no NaN is shown by a text that reads as the double. -/
theorem taken (hx : x.isNaN = false) : real? (realText x) = some x ∧ Taken x := by
  cases hu : x.toModel.unpack with
  | notANumber =>
    rw [Float.isNaN, Float.Model.isNaN, hu] at hx
    cases hx
  | infinity sign =>
    have htext : realText x = signText sign ++ "inf" := by rw [realText, hu, floatText]
    have hword : word? (realText x) = none := by
      rw [htext]
      cases sign <;> decide
    have hreal : real? (realText x) = some x := by
      rw [htext, eq_ofModel_of_unpack hu]
      cases sign <;> rfl
    exact ⟨hreal, taken_of_short hu nofun hword hreal⟩
  | zero sign =>
    have htext : realText x = signText sign ++ String.ofList ['0', '.', '0'] := by rw [realText, hu, floatText]
    have hread : Numeral.unsigned? ['0', '.', '0'] = some (⟨0, -1⟩, false) := by decide
    have hword : word? (realText x) = none := by rw [htext, word?_signed_point hread (by decide)]
    have hreal : real? (realText x) = some x := by
      rw [htext, real?_signed hread, Decimal.toSignedFloat_of_zero hu rfl]
    refine ⟨hreal, taken_of_short hu (fun k hk => ?_) hword hreal⟩
    have hzero : (0 : ℚ) = k := Option.some.inj hk
    exact_mod_cast hzero.symm
  | finite sign m e hm =>
    have hshows := shows_of_finite hu
    exact ⟨hshows.real?_eq hu, hshows.taken hu⟩

/-- A shown word reads back as the word, and a shown double that is no NaN reads back as the double, except that a
whole number from `1e15` on and below `2 ^ 63` is shown like a word and taken for it. -/
theorem shown_number_reads_back (n : Int64) (x : Float) (hx : x.isNaN = false) :
    argumentValue (Value.int n).display = .int n
      ∧ real? (Value.real x).display = some x
      ∧ (argumentValue (Value.real x).display = .real x ↔ ¬ IsLongWhole x)
      ∧ (IsLongWhole x → ∃ w : Int64, (Value.int w).display = (Value.real x).display
        ∧ argumentValue (Value.real x).display = .int w) := by
  obtain ⟨hreal, htaken⟩ := taken hx
  refine ⟨argumentValue_of_word? (word?_decimal n), hreal, ?_⟩
  change (argumentValue (realText x) = .real x ↔ _) ∧ (_ → ∃ w, Word.decimal w = realText x
    ∧ argumentValue (realText x) = .int w)
  cases htaken with
  | real hlong h => exact ⟨⟨fun _ => hlong, fun _ => h⟩, fun h => absurd h hlong⟩
  | @int w hlong h htext =>
    refine ⟨⟨fun hreal => ?_, fun hshort => absurd hlong hshort⟩, fun _ => ⟨w, htext, h⟩⟩
    rw [h] at hreal
    cases hreal

/-- One tenth keeps its point, and the smallest word its sign. -/
theorem shown_number_reads_back_tenth :
    (Float.ofBits 0x3FB999999999999A).isNaN = false
      ∧ argumentValue (Value.int (-9223372036854775808)).display = .int (-9223372036854775808)
      ∧ argumentValue (Value.real (Float.ofBits 0x3FB999999999999A)).display
        = .real (Float.ofBits 0x3FB999999999999A) := by
  have hx : (Float.ofBits 0x3FB999999999999A).isNaN = false := by decide
  have hunpack : (Float.ofBits 0x3FB999999999999A).toModel.unpack
      = .finite .positive 7205759403792794 (-56) (by decide) := rfl
  obtain ⟨hint, -, hreal, -⟩ := shown_number_reads_back (-9223372036854775808) (Float.ofBits 0x3FB999999999999A) hx
  refine ⟨hx, hint, hreal.2 fun hlong => ?_⟩
  obtain ⟨k, hk, hge, -⟩ := (isLongWhole_of_finite hunpack).1 hlong
  have hsmall : (k : ℚ) < 1 := by
    rw [← hk]
    norm_num
  have : k < 1 := by exact_mod_cast hsmall
  omega

/-- The double `1e15` is shown without a point and taken for an integer. -/
theorem long_whole_taken_for_word :
    (Float.ofBits 0x430C6BF526340000).isNaN = false
      ∧ (Value.real (Float.ofBits 0x430C6BF526340000)).display = "1000000000000000"
      ∧ argumentValue (Value.real (Float.ofBits 0x430C6BF526340000)).display = .int 1000000000000000 := by
  have htext : (Value.real (Float.ofBits 0x430C6BF526340000)).display = "1000000000000000" := by
    decide +kernel
  refine ⟨by decide, htext, ?_⟩
  rw [htext]
  exact argumentValue_of_word? (by decide)

end StackMachine.Cli

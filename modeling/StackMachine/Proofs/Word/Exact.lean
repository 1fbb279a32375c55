import Mathlib.Data.Int.Bitwise
import StackMachine.Word

/-!
Words as exact integers.  A sum or a product of words wraps around to the word that differs from it by a
multiple of their number; a shift multiplies or divides by a power of two, and the bits of a word are those of
its integer in two's complement.
-/

set_option autoImplicit false

namespace StackMachine.Word

/-! ## Wrapping around -/

/-- The integer in the range of the words that differs from `n` by a multiple of their number. -/
def wrap (n : Int) : Int := n.bmod cardinality

variable {n r : Int} {x y : Word}

theorem wrap_eq_iff : wrap n = r ↔ lowest ≤ r ∧ r ≤ highest ∧ (cardinality : Int) ∣ n - r := by
  rw [wrap, Int.bmod_def, cardinality, lowest, highest]
  split <;> omega

theorem wrap_of_mem (hlow : lowest ≤ n) (hhigh : n ≤ highest) : wrap n = n := by
  rw [wrap_eq_iff, Int.sub_self]
  exact ⟨hlow, hhigh, Int.dvd_zero _⟩

theorem wrap_of_dvd (h : (cardinality : Int) ∣ n) : wrap n = 0 := by
  rw [wrap_eq_iff, Int.sub_zero]
  exact ⟨by decide, by decide, h⟩

/-- A sum that is no more than a word does not wrap around. -/
theorem toInt_add_of_le {z : Word} (hx : 0 ≤ x.toInt) (hy : 0 ≤ y.toInt) (hz : x.toInt + y.toInt ≤ z.toInt) :
    (x + y).toInt = x.toInt + y.toInt := by
  have hlt := z.toInt_lt
  rw [Int64.toInt_add]
  refine Int.bmod_eq_of_le ?_ ?_ <;> omega

theorem lowest_le_toInt (x : Word) : lowest ≤ x.toInt := x.le_toInt

theorem toInt_le_highest (x : Word) : x.toInt ≤ highest := Int.le_of_lt_add_one x.toInt_lt

theorem toInt_complement (x : Word) : (~~~x).toInt = -x.toInt - 1 := by
  have hlow := lowest_le_toInt x
  have hhigh := toInt_le_highest x
  unfold lowest at hlow
  unfold highest at hhigh
  rw [Int64.toInt_not]
  refine wrap_of_mem ?_ ?_
  · unfold lowest
    omega
  · unfold highest
    omega

/-! ## Indices -/

theorem index?_eq_some {i : Nat} : index? x = some i ↔ x.toInt = i := Int.mem_toNat?

theorem index?_eq_none : index? x = none ↔ x.toInt < 0 := by
  unfold index?
  cases x.toInt with
  | ofNat i => exact ⟨nofun, fun h => absurd h (Int.not_lt.2 (Int.natCast_nonneg i))⟩
  | negSucc i => exact ⟨fun _ => Int.negSucc_lt_zero i, fun _ => rfl⟩

/-! ## Shifts -/

/-- The machine reduces a count modulo 64 first, which changes none below 64. -/
theorem toNat_smod_of_lt (h : 0 ≤ y.toInt) (hlt : y.toInt < 64) :
    (y.toBitVec.smod 64).toNat = y.toInt.toNat := by
  have hsmod : (y.toBitVec.smod 64).toInt = y.toInt := by
    rw [BitVec.toInt_smod]
    exact Int.fmod_eq_of_lt h hlt
  have hmsb : (y.toBitVec.smod 64).msb = false := by
    rw [BitVec.msb_eq_toInt, hsmod]
    exact decide_eq_false (Int.not_lt.2 h)
  rw [← hsmod, BitVec.toInt_eq_toNat_of_msb hmsb, Int.toNat_natCast]

theorem toInt_shiftLeft (h : 0 ≤ y.toInt) (hlt : y.toInt < 64) :
    (x <<< y).toInt = wrap (x.toInt * 2 ^ y.toInt.toNat) := by
  have hshift : (x <<< y).toBitVec = x.toBitVec <<< y.toInt.toNat := by
    rw [Int64.toBitVec_shiftLeft, BitVec.shiftLeft_eq', toNat_smod_of_lt h hlt]
  have hx : x.toInt = wrap x.toBitVec.toNat := x.toBitVec.toInt_eq_toNat_bmod
  have hmul : wrap (wrap x.toBitVec.toNat * 2 ^ y.toInt.toNat) = wrap (x.toBitVec.toNat * 2 ^ y.toInt.toNat) :=
    Int.bmod_mul_bmod
  rw [hx, hmul, ← Int64.toInt_toBitVec, hshift, BitVec.toInt_shiftLeft, Nat.shiftLeft_eq, Nat.cast_mul,
    Nat.cast_pow, Nat.cast_ofNat]
  rfl

/-- A shift by 64 or more leaves no bit. -/
theorem wrap_shift_of_le (n : Int) {k : Nat} (h : 64 ≤ k) : wrap (n * 2 ^ k) = 0 := by
  have hpow : (cardinality : Int) ∣ 2 ^ k := pow_dvd_pow (2 : Int) h
  exact wrap_of_dvd (Dvd.dvd.mul_left hpow n)

theorem toInt_shiftRight (h : 0 ≤ y.toInt) (hlt : y.toInt < 64) :
    (x >>> y).toInt = x.toInt.fdiv (2 ^ y.toInt.toNat) := by
  have hshift : (x >>> y).toBitVec = x.toBitVec.sshiftRight y.toInt.toNat := by
    rw [Int64.toBitVec_shiftRight, BitVec.sshiftRight_eq', toNat_smod_of_lt h hlt]
  have hpos : (0 : Int) ≤ 2 ^ y.toInt.toNat := Int.pow_nonneg (by decide)
  rw [← Int64.toInt_toBitVec, hshift, BitVec.toInt_sshiftRight, Int64.toInt_toBitVec,
    Int.shiftRight_eq_div_pow, Int.fdiv_eq_ediv_of_nonneg _ hpos, Nat.cast_pow, Nat.cast_ofNat]

/-- Of a word, a shift by 64 or more leaves nothing but the sign. -/
theorem fdiv_of_le (x : Word) {k : Nat} (h : 64 ≤ k) :
    x.toInt.fdiv (2 ^ k) = if x.toInt < 0 then -1 else 0 := by
  have hlow := lowest_le_toInt x
  have hhigh := toInt_le_highest x
  have hpow : (2 : Int) ^ 64 ≤ 2 ^ k := by
    exact_mod_cast Nat.pow_le_pow_right Nat.two_pos h
  unfold lowest at hlow
  unfold highest at hhigh
  rw [Int.fdiv_eq_ediv_of_nonneg _ (by omega)]
  split
  · next hneg => exact Int.ediv_eq_neg_one_of_neg_of_le hneg (by omega)
  · next hpos => exact Int.ediv_eq_zero_of_lt (Int.not_lt.1 hpos) (by omega)

/-! ## Bits -/

/-- Beyond its width a bit vector goes on with its sign. -/
theorem testBit_toInt {w : Nat} (b : BitVec w) (i : Nat) :
    b.toInt.testBit i = if i < w then b.getLsbD i else b.msb := by
  cases hmsb : b.msb with
  | false =>
    have hbits : b.toInt.testBit i = b.getLsbD i := by
      rw [BitVec.toInt_eq_toNat_of_msb hmsb]
      rfl
    rw [hbits]
    split
    · rfl
    · next hle => exact BitVec.getLsbD_of_ge b i (Nat.not_lt.1 hle)
  | true =>
    -- A negative integer is represented by the natural number whose bits are the opposite ones.
    have hneg : b.toInt = Int.negSucc (~~~b).toNat := by
      have hlt := b.isLt
      rw [BitVec.toInt_eq_msb_cond, if_pos hmsb, BitVec.toNat_not, Int.negSucc_eq]
      omega
    have hbits : b.toInt.testBit i = !(~~~b).getLsbD i := by
      rw [hneg]
      rfl
    rw [hbits, BitVec.getLsbD_not]
    by_cases hlt : i < w <;> simp [hlt]

theorem exists_testBit_eq_false (m n : Nat) : ∃ i, m.testBit i = false ∧ n.testBit i = false := by
  refine ⟨m + n, Nat.testBit_lt_two_pow ?_, Nat.testBit_lt_two_pow ?_⟩
  · exact Nat.lt_of_le_of_lt (Nat.le_add_right m n) Nat.lt_two_pow_self
  · exact Nat.lt_of_le_of_lt (Nat.le_add_left n m) Nat.lt_two_pow_self

theorem eq_of_testBit_eq {m n : Int} (h : ∀ i, m.testBit i = n.testBit i) : m = n := by
  cases m with
  | ofNat m =>
    cases n with
    | ofNat n => exact congrArg Int.ofNat (Nat.eq_of_testBit_eq h)
    | negSucc n =>
      obtain ⟨i, hm, hn⟩ := exists_testBit_eq_false m n
      have hi : m.testBit i = !n.testBit i := h i
      rw [hm, hn] at hi
      cases hi
  | negSucc m =>
    cases n with
    | ofNat n =>
      obtain ⟨i, hm, hn⟩ := exists_testBit_eq_false m n
      have hi : (!m.testBit i) = n.testBit i := h i
      rw [hm, hn] at hi
      cases hi
    | negSucc n => exact congrArg Int.negSucc (Nat.eq_of_testBit_eq fun i => Bool.not_inj (h i))

/-- What is done bit by bit to two words is done bit by bit to their integers. -/
theorem toInt_eq_bitwise {f : Bool → Bool → Bool} {z : Word}
    (h : ∀ i, i < 64 → z.toBitVec.getLsbD i = f (x.toBitVec.getLsbD i) (y.toBitVec.getLsbD i)) :
    z.toInt = Int.bitwise f x.toInt y.toInt := by
  refine eq_of_testBit_eq fun i => ?_
  rw [Int.testBit_bitwise, ← Int64.toInt_toBitVec, ← Int64.toInt_toBitVec, ← Int64.toInt_toBitVec,
    testBit_toInt, testBit_toInt, testBit_toInt]
  split
  · next hlt => exact h i hlt
  · rw [BitVec.msb_eq_getLsbD_last, BitVec.msb_eq_getLsbD_last, BitVec.msb_eq_getLsbD_last]
    exact h 63 (by decide)

theorem toInt_and (x y : Word) : (x &&& y).toInt = x.toInt.land y.toInt := by
  rw [← Int.bitwise_and]
  exact toInt_eq_bitwise fun i _ => BitVec.getLsbD_and

theorem toInt_or (x y : Word) : (x ||| y).toInt = x.toInt.lor y.toInt := by
  rw [← Int.bitwise_or]
  exact toInt_eq_bitwise fun i _ => BitVec.getLsbD_or

theorem toInt_xor (x y : Word) : (x ^^^ y).toInt = x.toInt.xor y.toInt := by
  rw [← Int.bitwise_xor]
  exact toInt_eq_bitwise fun i _ => BitVec.getLsbD_xor

end StackMachine.Word

import StackMachine.Word

/-!
Positions: unsigned words that number the slots of a stack.  Their arithmetic wraps around as well, so each step comes
with a test that the words themselves can make.  A step that passes its test is exact, and one that does not would have
wrapped around.
-/

set_option autoImplicit false

namespace StackMachine

/-- An unsigned word: a slot, or a number of slots. -/
abbrev Position := UInt64

namespace Position

/-- The sum, unless a bit is carried out of it. -/
def plus? (a b : Position) : Option Position :=
  if a + b < a then none else some (a + b)

/-- The difference, unless a bit is borrowed for it. -/
def minus? (a b : Position) : Option Position :=
  if a < b then none else some (a - b)

/-- The same bits read without a sign, unless the sign bit is set. -/
def ofWord? (n : Word) : Option Position :=
  if n < 0 then none else some n.toUInt64

/-- The difference, or zero where there is none. -/
def monus (a b : Position) : Position := (minus? a b).getD 0

variable {a b c : Position} {n : Word}

theorem toNat_lt_cardinality (a : Position) : a.toNat < Word.cardinality := a.toNat_lt

theorem toNat_ofNat {k : Nat} (h : k < Word.cardinality) : (UInt64.ofNat k).toNat = k :=
  UInt64.toNat_ofNat_of_lt' h

/-! ## Sums -/

theorem add_lt_iff : a + b < a ↔ Word.cardinality ≤ a.toNat + b.toNat := by
  have ha := toNat_lt_cardinality a
  have hb := toNat_lt_cardinality b
  rw [UInt64.lt_iff_toNat_lt, UInt64.toNat_add]
  unfold Word.cardinality at ha hb ⊢
  omega

theorem plus?_eq_some : plus? a b = some c ↔ c.toNat = a.toNat + b.toNat := by
  have hc := toNat_lt_cardinality c
  unfold plus?
  split
  · next h =>
    rw [add_lt_iff] at h
    constructor
    · intro hsome
      cases hsome
    · intro heq
      omega
  · next h =>
    rw [add_lt_iff] at h
    have hsum : (a + b).toNat = a.toNat + b.toNat := by
      unfold Word.cardinality at h
      rw [UInt64.toNat_add]
      omega
    rw [Option.some.injEq, ← UInt64.toNat_inj, hsum]
    exact eq_comm

theorem plus?_eq_none : plus? a b = none ↔ Word.cardinality ≤ a.toNat + b.toNat := by
  rw [← add_lt_iff]
  simp [plus?]

/-! ## Differences -/

theorem minus?_eq_some : minus? a b = some c ↔ a.toNat = b.toNat + c.toNat := by
  unfold minus?
  split
  · next h =>
    rw [UInt64.lt_iff_toNat_lt] at h
    constructor
    · intro hsome
      cases hsome
    · intro heq
      omega
  · next h =>
    have hdifference : (a - b).toNat = a.toNat - b.toNat := UInt64.toNat_sub_of_le a b (UInt64.not_lt.1 h)
    rw [UInt64.lt_iff_toNat_lt] at h
    rw [Option.some.injEq, ← UInt64.toNat_inj, hdifference]
    omega

theorem minus?_eq_none : minus? a b = none ↔ a.toNat < b.toNat := by
  rw [← UInt64.lt_iff_toNat_lt]
  simp [minus?]

theorem toNat_monus (a b : Position) : (monus a b).toNat = a.toNat - b.toNat := by
  unfold monus
  cases h : minus? a b with
  | none =>
    rw [minus?_eq_none] at h
    have hzero : a.toNat - b.toNat = 0 := by omega
    rw [Option.getD_none, hzero]
    rfl
  | some c =>
    rw [minus?_eq_some] at h
    rw [Option.getD_some]
    omega

/-- To look something up at a difference, where there is one. -/
theorem minus?_bind {α : Type} (a b : Position) (f : Nat → Option α) :
    ((minus? a b).bind fun c => f c.toNat) = if b.toNat ≤ a.toNat then f (a.toNat - b.toNat) else none := by
  cases h : minus? a b with
  | none =>
    rw [minus?_eq_none] at h
    rw [if_neg (by omega)]
    rfl
  | some c =>
    rw [minus?_eq_some] at h
    have hc : a.toNat - b.toNat = c.toNat := by omega
    rw [if_pos (by omega), hc]
    rfl

/-! ## Words as positions -/

theorem lt_zero_iff : n < 0 ↔ n.toInt < 0 := Int64.lt_iff_toInt_lt

theorem toInt_eq_toNat (h : 0 ≤ n.toInt) : n.toInt = n.toUInt64.toNat := by
  have hmsb : n.toBitVec.msb = false := by
    rw [BitVec.msb_eq_toInt]
    exact decide_eq_false (Int.not_lt.2 h)
  exact BitVec.toInt_eq_toNat_of_msb hmsb

theorem ofWord?_eq_some : ofWord? n = some c ↔ n.toInt = c.toNat := by
  unfold ofWord?
  split
  · next h =>
    rw [lt_zero_iff] at h
    constructor
    · intro hsome
      cases hsome
    · intro heq
      omega
  · next h =>
    rw [lt_zero_iff, Int.not_lt] at h
    have hint := toInt_eq_toNat h
    rw [Option.some.injEq, ← UInt64.toNat_inj]
    omega

theorem ofWord?_eq_none : ofWord? n = none ↔ n.toInt < 0 := by
  rw [← lt_zero_iff]
  simp [ofWord?]

end Position

end StackMachine

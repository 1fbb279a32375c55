import StackMachine.Proofs.Checks
import StackMachine.Proofs.Stack.Slots

/-!
When the operations on a stack succeed, and that they keep a stack within its limit.  All room comes from
one check, `reserve`; an operation that takes values away before it puts one on needs no room.
-/

set_option autoImplicit false

namespace StackMachine.OperandStack

variable {s t : OperandStack} {n k : Nat} {v : Value}

/-- The stack is within its limit, as far as depths are counted. -/
def Fits (s : OperandStack) : Prop := 0 < s.limit → min s.depth largestDepth ≤ s.limit

theorem reserve_eq_ok :
    s.reserve n = .ok () ↔ (0 < s.limit → min (s.depth + n) largestDepth ≤ s.limit) := by
  rw [reserve]
  split
  · next h => simp only [reduceCtorEq, false_iff]; omega
  · next h => simp only [true_iff]; omega

theorem reserve_eq_error {cause : Cause} (h : s.reserve n = .error cause) :
    cause = .overflow n s.limit := by
  rw [reserve] at h
  split at h
  · cases h; rfl
  · cases h

theorem fits_of_reserve (h : s.reserve n = .ok ()) (hlimit : t.limit = s.limit)
    (hdepth : t.depth ≤ s.depth + n) : t.Fits := by
  rw [reserve_eq_ok] at h
  rw [Fits, hlimit]
  omega

theorem Fits.of_le (h : s.Fits) (hlimit : t.limit = s.limit) (hdepth : t.depth ≤ s.depth) :
    t.Fits := by
  rw [Fits, hlimit]
  rw [Fits] at h
  omega

theorem Fits.reserve_eq_ok (h : s.Fits) (hlimit : t.limit = s.limit)
    (hdepth : t.depth + n ≤ s.depth) : t.reserve n = .ok () := by
  rw [OperandStack.reserve_eq_ok, hlimit]
  rw [Fits] at h
  omega

theorem push_eq_error {cause : Cause} : s.push v = .error cause ↔ s.reserve 1 = .error cause := by
  rw [push]
  cases s.reserve 1 <;> simp

/-! ## When an operation succeeds -/

theorem require_eq_ok : s.require n = .ok () ↔ n ≤ s.depth := by
  rw [require]
  split
  · next h => simp only [reduceCtorEq, false_iff]; omega
  · next h => simp only [true_iff]; omega

theorem push_eq_ok : s.push v = .ok t ↔ s.reserve 1 = .ok () ∧ s.put v = t := by
  rw [push, check_bind_eq_ok]
  simp

theorem discard_eq_ok : s.discard n = .ok t ↔ n ≤ s.depth ∧ s.drop n = t := by
  rw [discard, check_bind_eq_ok, require_eq_ok]
  simp

theorem duplicate_eq_ok :
    s.duplicate n = .ok t ↔
      n ≤ s.depth ∧ s.reserve n = .ok ()
        ∧ { s with values := s.values.pile (s.values.topDown.take n) } = t := by
  rw [duplicate, check_bind_eq_ok, require_eq_ok, check_bind_eq_ok]
  simp

theorem rotate_eq_ok :
    s.rotate n k = .ok t ↔
      n ≤ s.depth
        ∧ { s with
            values := (s.values.drop n).pile
              ((s.values.topDown.take n).reverse.rotateLeft k).reverse } = t := by
  rw [rotate, check_bind_eq_ok, require_eq_ok]
  simp

theorem alloc_eq_ok :
    s.alloc n = .ok t ↔
      s.reserve n = .ok () ∧ { s with values := s.values.pile (List.replicate n .null) } = t := by
  rw [alloc, check_bind_eq_ok]
  simp

theorem argCount_eq_ok {fp : Nat} {count : Word} :
    s.argCount fp = .ok count ↔ 2 ≤ fp ∧ s.get? (fp - 2) = some (.int count) := by
  rw [argCount]
  by_cases hfp : 2 ≤ fp
  · rw [if_pos hfp]
    rcases s.get? (fp - 2) with _ | v
    · simp
    · cases v <;> simp [hfp, eq_comm]
  · simp [hfp]

theorem localSlot_eq_ok {fp bound slot : Nat} {w : Word} :
    localSlot fp w bound = .ok slot ↔ ∃ i, Word.index? w = some i ∧ fp + i < bound ∧ slot = fp + i := by
  rw [localSlot]
  cases Word.index? w with
  | none => simp
  | some i =>
    by_cases h : fp + i < bound
    · simp [h, eq_comm]
    · simp [h]

theorem pop_eq_ok : s.pop = .ok (v, t) ↔ s.peek 0 = .ok v ∧ s.drop 1 = t := by
  rw [pop, peek]
  rcases hv : s.values.topDown with _ | ⟨w, rest⟩
  · simp
  · have ht : ({ s with values := s.values.tail } : OperandStack) = s.drop 1 := by
      simp [drop, Pile.tail, Pile.drop, hv]
    simp [ht]

/-- Moving the top value into a local below it. -/
theorem setLocal_eq_ok {fp : Nat} {w : Word} :
    s.setLocal fp w = .ok t ↔
      ∃ v slot, s.peek 0 = .ok v ∧ localSlot fp w (s.depth - 1) = .ok slot
        ∧ { s.drop 1 with values := (s.drop 1).values.set slot v } = t := by
  rw [setLocal, bind_eq_ok]
  constructor
  · rintro ⟨⟨v, rest⟩, hpop, hset⟩
    rw [pop_eq_ok] at hpop
    obtain ⟨hpeek, rfl⟩ := hpop
    obtain ⟨slot, hslot, hval⟩ := bind_eq_ok.1 hset
    exact ⟨v, slot, hpeek, hslot, by simpa using hval⟩
  · rintro ⟨v, slot, hpeek, hslot, rfl⟩
    refine ⟨(v, s.drop 1), pop_eq_ok.2 ⟨hpeek, rfl⟩, bind_eq_ok.2 ⟨slot, hslot, rfl⟩⟩

end StackMachine.OperandStack

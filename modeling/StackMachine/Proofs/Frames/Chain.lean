import StackMachine.Proofs.Frames.Exit
import StackMachine.Proofs.Program.Table

/-!
The chain of frames.  Each frame links to the one of its caller, which lies below its arguments, and has an
address of its own to go on at.  The chain only depends on the slots below the current frame.
-/

set_option autoImplicit false

namespace StackMachine

/-- The stacks that fit into memory: they hold less than `2 ^ 63` values, so the number of a slot is a word. -/
def OperandStack.Addressable (s : OperandStack) : Prop := s.depth < 2 ^ 63

instance (s : OperandStack) : Decidable s.Addressable := inferInstanceAs (Decidable (s.depth < 2 ^ 63))

namespace Machine

/-- The frames from `fp` with the return addresses `returns` down to the one at `base` with `rest`. -/
inductive Chain (base : Nat) (rest : List Nat) (s : OperandStack) : Nat → List Nat → Prop
  | own : Chain base rest s base rest
  | nested {fp caller argc ret : Nat} {returns : List Nat} (h : Chain base rest s caller returns)
    (hlink : s.get? (fp - 1) = some (.int (Int64.ofNat caller)))
    (hcount : s.get? (fp - 2) = some (.int (Int64.ofNat argc)))
    (hfit : caller + argc + 2 ≤ fp) (hfp : fp < 2 ^ 63) : Chain base rest s fp (ret :: returns)

variable {m : Machine} {base fp : Nat} {rest returns : List Nat} {s t : OperandStack}

theorem Chain.base_le (h : Chain base rest s fp returns) : base ≤ fp := by
  induction h with
  | own => exact Nat.le_refl _
  | nested _ _ _ hfit _ ih => omega

theorem Chain.suffix (h : Chain base rest s fp returns) : rest <:+ returns := by
  induction h with
  | own => exact List.suffix_rfl
  | nested _ _ _ _ _ ih => exact ih.trans (List.suffix_cons _ _)

/-- The chain survives whatever happens above the current frame. -/
theorem Chain.of_agreeBelow (h : Chain base rest s fp returns)
    (ha : OperandStack.AgreeBelow fp s t) : Chain base rest t fp returns := by
  induction h with
  | own => exact .own
  | nested _ hlink hcount hfit hfp ih =>
    refine .nested (ih (ha.mono (by omega))) ?_ ?_ hfit hfp
    · rw [ha _ (by omega), hlink]
    · rw [ha _ (by omega), hcount]

/-- Only the first frame of a chain has no more return addresses than the first frame. -/
theorem Chain.own_of_length (h : Chain base rest s fp returns) (hlen : returns.length ≤ rest.length) :
    fp = base ∧ returns = rest := by
  cases h with
  | own => exact ⟨rfl, rfl⟩
  | nested h =>
    have hle := h.suffix.length_le
    rw [List.length_cons] at hlen
    omega

/-- A frame whose link and count are those of a call leads back to the caller. -/
theorem frameExit_of_words {caller argc ret : Nat}
    (hlink : m.stack.get? (m.fp - 1) = some (.int (Int64.ofNat caller)))
    (hcount : m.stack.get? (m.fp - 2) = some (.int (Int64.ofNat argc)))
    (hfit : caller + argc + 2 ≤ m.fp) (hfp : m.fp < 2 ^ 63)
    (hret : m.returns.topDown = ret :: returns) :
    m.frameExit = .ok ⟨m.fp - 2 - argc, some (caller, ret)⟩ := by
  have hl : m.Linked (Int64.ofNat caller) argc :=
    ⟨by omega, hlink, ⟨_, hcount, Word.index?_ofNat (by omega)⟩, by omega⟩
  have hindex : Word.index? (Int64.ofNat caller) = some caller := Word.index?_ofNat (by omega)
  have hhalt : Int64.ofNat caller ≠ haltLink := by
    intro h
    rw [h] at hindex
    cases hindex
  have hbelow : ¬ m.fp - 2 - argc < caller := by omega
  rw [frameExit_of_linked hl, if_neg hhalt, hindex]
  simp only [if_neg hbelow, hret]

end Machine

end StackMachine

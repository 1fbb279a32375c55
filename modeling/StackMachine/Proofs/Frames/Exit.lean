import StackMachine.Machine.Execute
import StackMachine.Proofs.Stack.Room

/-!
Entering and leaving a frame.  A frame is left through the link and the count below it, if they fit; what
stays of the stack and the frame to go on with lie below them, and the address comes from the list of return
addresses.
-/

set_option autoImplicit false

namespace StackMachine

namespace Machine

variable {m : Machine}

/-- The frame that is left: its link and its count, and the arguments fit below it. -/
structure Linked (m : Machine) (link : Word) (argc : Nat) : Prop where
  two_le : 2 ≤ m.fp
  link_eq : m.stack.get? (m.fp - 1) = some (.int link)
  count_eq : ∃ count, m.stack.get? (m.fp - 2) = some (.int count) ∧ Word.index? count = some argc
  argc_le : argc ≤ m.fp - 2

/-! ## Leaving a frame -/

theorem frameExit_of_lt (h : m.fp < 2) : m.frameExit = .ok ⟨0, none⟩ := if_pos h

theorem frameExit_of_linked {link : Word} {argc : Nat} (h : m.Linked link argc) :
    m.frameExit =
      if link = haltLink then .ok ⟨m.fp - 2 - argc, none⟩
      else match Word.index? link with
        | none => .error (.linkNotBelow link)
        | some fp =>
          if m.fp - 2 - argc < fp then .error (.linkNotBelow link)
          else match m.returns.topDown with
            | ip :: _ => .ok ⟨m.fp - 2 - argc, some (fp, ip)⟩
            | [] => .error .noReturnAddress := by
  obtain ⟨count, hcount, hindex⟩ := h.count_eq
  have hargc : m.stack.argCount m.fp = .ok count := OperandStack.argCount_eq_ok.2 ⟨h.two_le, hcount⟩
  have hle : ¬ m.fp - 2 < argc := Nat.not_lt.2 h.argc_le
  rw [frameExit, if_neg (Nat.not_lt.2 h.two_le), h.link_eq]
  simp only [hargc, ok_bind, hindex, if_neg hle]
  rfl

/-- A frame can only be left when it has a link and a count that fit, or when nothing lies below it. -/
theorem linked_of_frameExit {exit : FrameExit} (h : m.frameExit = .ok exit) (hfp : 2 ≤ m.fp) :
    ∃ link argc, m.Linked link argc := by
  rw [frameExit, if_neg (Nat.not_lt.2 hfp)] at h
  split at h
  · next link hlink =>
    obtain ⟨count, hcount, h⟩ := bind_eq_ok.1 h
    cases hindex : Word.index? count with
    | none => simp [hindex] at h
    | some argc =>
      rw [hindex] at h
      by_cases hargc : m.fp - 2 < argc
      · simp [if_pos hargc] at h
      · exact ⟨link, argc, hfp, hlink, ⟨count, (OperandStack.argCount_eq_ok.1 hcount).2, hindex⟩, by omega⟩
  · cases h

/-- What is left of the stack lies below the link and the count. -/
theorem frameExit_base_le {exit : FrameExit} (h : m.frameExit = .ok exit) : exit.base ≤ m.fp - 2 := by
  by_cases hfp : m.fp < 2
  · rw [frameExit_of_lt hfp] at h
    cases h
    exact Nat.zero_le _
  · obtain ⟨link, argc, hl⟩ := linked_of_frameExit h (Nat.not_lt.1 hfp)
    rw [frameExit_of_linked hl] at h
    have hbase : exit.base = m.fp - 2 - argc := by
      repeat' split at h
      all_goals cases h
      all_goals rfl
    omega

/-- Where a frame that is left leads back to: the caller's frame lies below what is left, and the address is
the last one recorded. -/
theorem frameExit_resume {base fp ip : Nat} (h : m.frameExit = .ok ⟨base, some (fp, ip)⟩) :
    fp ≤ base ∧ ∃ rest, m.returns.topDown = ip :: rest := by
  by_cases hfp : m.fp < 2
  · rw [frameExit_of_lt hfp] at h
    cases h
  · obtain ⟨link, argc, hl⟩ := linked_of_frameExit h (Nat.not_lt.1 hfp)
    rw [frameExit_of_linked hl] at h
    split at h
    · cases h
    · split at h
      · cases h
      · split at h
        · cases h
        · next hle =>
          split at h
          · next rest hrest =>
            cases h
            exact ⟨by omega, rest, hrest⟩
          · cases h

theorem frameResult_false : m.frameResult false = .ok none := rfl

theorem frameResult_true_eq_ok {result : Option Value} :
    m.frameResult true = .ok result ↔
      m.fp < m.stack.depth ∧ ∃ v, m.stack.peek 0 = .ok v ∧ result = some v := by
  rw [frameResult, if_pos rfl]
  by_cases h : m.stack.depth ≤ m.fp
  · simp [h, Nat.not_lt.2 h]
  · obtain ⟨v, hv, -⟩ := OperandStack.peek_zero (Nat.zero_lt_of_lt (Nat.not_le.1 h))
    rw [if_neg h, hv]
    simp [Except.map, Nat.not_le.1 h, eq_comm]

/-! ## Entering a frame -/

theorem argumentCount_eq_ok {argc : Word} {count : Nat} :
    m.argumentCount argc = .ok count ↔ Word.index? argc = some count ∧ count ≤ m.stack.depth - m.fp := by
  rw [argumentCount]
  cases Word.index? argc with
  | none => simp
  | some n =>
    by_cases h : m.stack.depth - m.fp < n
    · simp only [if_pos h, reduceCtorEq, Option.some.injEq, false_iff]
      rintro ⟨rfl, hle⟩
      omega
    · simp only [if_neg h, Except.ok.injEq, Option.some.injEq]
      exact ⟨fun heq => ⟨heq, by omega⟩, And.left⟩

theorem checkCallDepth_eq_ok :
    m.checkCallDepth = .ok () ↔ ¬ (0 < m.config.maxCallDepth ∧ m.config.maxCallDepth ≤ m.callDepth) := by
  rw [checkCallDepth]
  split
  · next h => simp [h]
  · next h => simp only [true_iff]; exact h

theorem checkCall_eq_ok {target argc : Word} {ip count : Nat}
    (h : m.checkCall target argc = .ok (ip, count)) :
    m.jumpTarget target = .ok ip ∧ Word.index? argc = some count ∧ count ≤ m.stack.depth - m.fp
      ∧ m.checkCallDepth = .ok () ∧ m.stack.reserve 2 = .ok () := by
  obtain ⟨ip', hip, h⟩ := bind_eq_ok.1 h
  obtain ⟨count', hcount, h⟩ := bind_eq_ok.1 h
  obtain ⟨hdepth, h⟩ := check_bind_eq_ok.1 h
  obtain ⟨hroom, h⟩ := check_bind_eq_ok.1 h
  cases h
  obtain ⟨hindex, hle⟩ := argumentCount_eq_ok.1 hcount
  exact ⟨hip, hindex, hle, hdepth, hroom⟩

end Machine

end StackMachine

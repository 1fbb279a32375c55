import StackMachine.Proofs.Frames.Activation

/-!
Returning from a call.  What a call put below the frame of the callee is still there when the callee leaves
it, so the caller goes on where it was, with its own stack but for the arguments.
-/

set_option autoImplicit false

namespace StackMachine.Machine

variable {m m₀ : Machine} {d : Decoded} {argc : Word} {ip count : Nat}

/-! ## The call -/

theorem Calls.next_address (h : m₀.Calls d argc ip count) : d.next = m₀.ip + 3 := by
  obtain ⟨target, hi, -⟩ := h.checked
  have hop : d.op = .call := by
    rw [Decoded.instruction] at hi
    cases hd : d.op with
    | call => rfl
    | _ => rw [hd] at hi; cases hi
  rw [(decodes_of_next? h.next_eq).next_eq, hop]
  rfl

theorem Calls.count_le (h : m₀.Calls d argc ip count) : m₀.fp + count ≤ m₀.stack.depth := by
  obtain ⟨target, -, hcheck⟩ := h.checked
  obtain ⟨-, -, hcount, -, -⟩ := checkCall_eq_ok hcheck
  have hle := h.fp_le
  change count ≤ m₀.stack.depth - m₀.fp at hcount
  omega

theorem Calls.index_argc (h : m₀.Calls d argc ip count) : Word.index? argc = some count := by
  obtain ⟨target, -, hcheck⟩ := h.checked
  exact (checkCall_eq_ok hcheck).2.1

/-- The stack of the callee at the start: the caller's, the number of arguments and the link. -/
theorem Calls.toList_enter (h : m₀.Calls d argc ip count) :
    ((m₀.fetch d).enter ip count).stack.toList =
      m₀.stack.toList ++ [.int argc, .int (Int64.ofNat m₀.fp)] := by
  show ((m₀.stack.put _).put _).toList = _
  rw [Word.ofNat_of_index? h.index_argc]
  simp [fetch]

theorem Calls.within_enter (h : m₀.Calls d argc ip count)
    (ha : ((m₀.fetch d).enter ip count).stack.Addressable) :
    Within m₀ d ip count ((m₀.fetch d).enter ip count) := by
  obtain ⟨target, -, hcheck⟩ := h.checked
  obtain ⟨-, -, -, -, hroom⟩ := checkCall_eq_ok hcheck
  exact ⟨OperandStack.fits_of_reserve hroom rfl (Nat.le_refl _), ha, .refl _ _, Nat.le_refl _, .own⟩

/-! ## The frame of the callee -/

theorem Within.get?_eq (hw : Within m₀ d ip count m) (h : m₀.Calls d argc ip count) {slot : Nat}
    (hslot : slot < m₀.stack.depth + 2) :
    m.stack.get? slot = (m₀.stack.toList ++ [.int argc, .int (Int64.ofNat m₀.fp)])[slot]? := by
  rw [hw.below slot hslot, OperandStack.get?_eq_getElem?, h.toList_enter]

theorem Within.count_slot (hw : Within m₀ d ip count m) (h : m₀.Calls d argc ip count) :
    m.stack.get? m₀.stack.depth = some (.int argc) := by
  have hlen := m₀.stack.length_toList
  rw [hw.get?_eq h (by omega), List.getElem?_append_right (by omega), hlen, Nat.sub_self]
  rfl

theorem Within.link_slot (hw : Within m₀ d ip count m) (h : m₀.Calls d argc ip count) :
    m.stack.get? (m₀.stack.depth + 1) = some (.int (Int64.ofNat m₀.fp)) := by
  have hlen := m₀.stack.length_toList
  rw [hw.get?_eq h (by omega), List.getElem?_append_right (by omega), hlen, Nat.add_sub_cancel_left]
  rfl

/-- The frame of the callee leads back to the caller. -/
theorem Within.frameExit_own (hw : Within m₀ d ip count m) (h : m₀.Calls d argc ip count)
    (hfp : m.fp = m₀.stack.depth + 2) (hreturns : m.returns.topDown = d.next :: m₀.returns.topDown) :
    m.frameExit = .ok ⟨m₀.stack.depth - count, some (m₀.fp, d.next)⟩ := by
  have hcount := h.count_le
  have hbound : m.fp < 2 ^ 63 := Nat.lt_of_le_of_lt hw.frames.fp_le hw.addressable
  have hlink : m.stack.get? (m.fp - 1) = some (.int (Int64.ofNat m₀.fp)) := by
    rw [hfp]
    exact hw.link_slot h
  have hargc : m.stack.get? (m.fp - 2) = some (.int (Int64.ofNat count)) := by
    rw [hfp, Word.ofNat_of_index? h.index_argc]
    exact hw.count_slot h
  rw [frameExit_of_words hlink hargc (by omega) hbound hreturns, hfp, Nat.add_sub_cancel]

/-- Every frame from the callee's up can be left, and leads on. -/
theorem Within.frameExit_ok (hw : Within m₀ d ip count m) (h : m₀.Calls d argc ip count) :
    ∃ base fp ip, m.frameExit = .ok ⟨base, some (fp, ip)⟩ := by
  have hchain := hw.frames.chain
  generalize hreturns : m.returns.topDown = returns at hchain
  generalize hfp : m.fp = fp at hchain
  cases hchain with
  | own => exact ⟨_, _, _, hw.frameExit_own h hfp hreturns⟩
  | nested _ hlink hcount hfit hbound =>
    subst hfp
    exact ⟨_, _, _, frameExit_of_words hlink hcount hfit hbound hreturns⟩

theorem Within.own_of_callDepth (hw : Within m₀ d ip count m) (hdepth : m.callDepth ≤ m₀.callDepth + 1) :
    m.fp = m₀.stack.depth + 2 ∧ m.returns.topDown = d.next :: m₀.returns.topDown := by
  refine hw.frames.chain.own_of_length ?_
  rw [List.length_cons, ← m.returns.height_eq, ← m₀.returns.height_eq]
  exact hdepth

theorem Within.fp_eq_iff (hw : Within m₀ d ip count m) :
    m.fp = m₀.stack.depth + 2 ↔ m.callDepth = m₀.callDepth + 1 := by
  constructor
  · intro hfp
    have hchain := hw.frames.chain
    generalize hreturns : m.returns.topDown = returns at hchain
    rw [hfp] at hchain
    cases hchain with
    | own => rw [callDepth, m.returns.height_eq, hreturns, List.length_cons, ← m₀.returns.height_eq]; rfl
    | nested h _ _ hfit =>
      have hle := h.base_le
      omega
  · intro hdepth
    exact (hw.own_of_callDepth (Nat.le_of_eq hdepth)).1

/-! ## What lies below the frame of the callee -/

theorem Within.toList_below (hw : Within m₀ d ip count m) (h : m₀.Calls d argc ip count) :
    m.stack.toList.take (m₀.stack.depth + 2) =
      m₀.stack.toList ++ [.int argc, .int (Int64.ofNat m₀.fp)] := by
  rw [hw.below.take_toList, h.toList_enter, List.take_of_length_le]
  rw [List.length_append, m₀.stack.length_toList]
  exact Nat.le_refl _

theorem Within.returns_below (hw : Within m₀ d ip count m) (h : m₀.Calls d argc ip count) :
    m.returns.toList.take (m₀.callDepth + 1) = m₀.returns.toList ++ [m₀.ip + 3] := by
  have hprefix := List.reverse_prefix.2 hw.frames.chain.suffix
  rw [List.reverse_cons, List.prefix_iff_eq_take, h.next_address] at hprefix
  have hheight : (m₀.returns.toList ++ [m₀.ip + 3]).length = m₀.callDepth + 1 := by
    rw [List.length_append, Pile.length_toList]
    rfl
  rw [← hheight]
  exact hprefix.symm

/-- The stack that the callee leaves to the caller. -/
theorem Within.toList_cut_own (hw : Within m₀ d ip count m) (h : m₀.Calls d argc ip count)
    (result : Option Value) :
    (m.cut (m₀.stack.depth - count) result).toList =
      m₀.stack.toList.take (m₀.stack.depth - count) ++ result.toList := by
  have hlen := m₀.stack.length_toList
  have htake := congrArg (List.take (m₀.stack.depth - count)) (hw.toList_below h)
  rw [List.take_take, Nat.min_eq_left (by omega), List.take_append_of_le_length (by omega)] at htake
  rw [toList_cut, htake]

/-! ## Arguments -/

/-- An argument of the callee's frame is a value that the caller pushed, the last one first. -/
theorem Within.getArg_own (hw : Within m₀ d ip count m) (h : m₀.Calls d argc ip count)
    (hfp : m.fp = m₀.stack.depth + 2) {n : Word} {k : Nat} (hn : Word.index? n = some k)
    (hk : k ≤ count) :
    ∃ v, m.stack.getArg m.fp n = .ok v ∧ (k = 0 → v = .int argc)
      ∧ ∀ j, k = j + 1 → m₀.stack.peek j = .ok v := by
  have hcount := h.count_le
  have hnInt : n.toInt = k := Int.mem_toNat?.1 hn
  have hargcInt : argc.toInt = count := Int.mem_toNat?.1 h.index_argc
  have hargCount : m.stack.argCount m.fp = .ok argc := by
    rw [OperandStack.argCount_eq_ok, hfp]
    exact ⟨Nat.le_add_left _ _, hw.count_slot h⟩
  have hrange : ¬ (n < 0 ∨ argc < n) := by
    rw [Int64.lt_iff_toInt_lt, Int64.lt_iff_toInt_lt, Int64.toInt_zero, hnInt, hargcInt]
    omega
  have hslot : ∃ v, m.stack.get? (m₀.stack.depth - k) = some v ∧ (k = 0 → v = .int argc)
      ∧ ∀ j, k = j + 1 → m₀.stack.peek j = .ok v := by
    cases k with
    | zero => exact ⟨_, hw.count_slot h, fun _ => rfl, nofun⟩
    | succ j =>
      obtain ⟨v, hpeek, hget⟩ := m₀.stack.exists_peek (n := j) (by omega)
      refine ⟨v, ?_, nofun, fun j' hj => by cases hj; exact hpeek⟩
      have hlen := m₀.stack.length_toList
      rw [hw.get?_eq h (by omega), List.getElem?_append_left (by omega),
        ← OperandStack.get?_eq_getElem?, ← hget]
      congr 1
      omega
  obtain ⟨v, hget, hv⟩ := hslot
  refine ⟨v, ?_, hv⟩
  rw [OperandStack.getArg, hargCount, ok_bind, if_neg hrange, hnInt, hfp]
  simp only [Int.toNat_natCast, Nat.add_sub_cancel]
  rw [if_pos (by omega), hget]
  rfl

/-! ## The return -/

theorem Executes.leave_of_callDepth_lt {start : Nat} {i : Instruction} {e : Execution}
    (h : m.Executes start i e) (hlt : e.machine.callDepth < m.callDepth) :
    ∃ withResult result, i = .leave withResult ∧ m.frameResult withResult = .ok result := by
  cases h with
  | resumed hi hr => exact ⟨_, _, hi, hr⟩
  | called => exact absurd hlt (Nat.not_lt.2 (Nat.le_succ _))
  | _ => exact absurd hlt (Nat.lt_irrefl _)

/-- Only leaving a frame makes an address disappear. -/
theorem leave_of_callDepth_lt (fits : m.stack.Fits) (hlt : m.step.machine.callDepth < m.callDepth) :
    ∃ d withResult result, m.next? = some d ∧ d.instruction = .leave withResult
      ∧ m.frameResult withResult = .ok result := by
  cases lands fits with
  | stays executed count sink state h =>
    rw [h] at hlt
    exact absurd hlt (Nat.lt_irrefl _)
  | @executes d e hn he _ count sink state h =>
    rw [h] at hlt
    obtain ⟨withResult, result, hi, hr⟩ := he.leave_of_callDepth_lt hlt
    exact ⟨d, withResult, result, hn, hi, hr⟩

/-- The step that leaves a frame which can be left. -/
theorem step_leave (fits : m.stack.Fits) {d : Decoded} {withResult : Bool} {result : Option Value}
    (hn : m.next? = some d) (hi : d.instruction = .leave withResult)
    (hr : m.frameResult withResult = .ok result) {exit : FrameExit} (he : m.frameExit = .ok exit) :
    (m.step.reports = [] ∧ ∃ state, m.step.result = .ok state)
      ∧ ∀ fp ip, exit.resume = some (fp, ip) → m.step.machine =
        { m.fetch d with stack := m.cut exit.base result, returns := m.returns.tail, fp, ip } := by
  have hexec := execute_leave (m := m.fetch d) fits m.ip hr he
  rw [← hi] at hexec
  have hexecutes := executes (m := m.fetch d) fits m.ip d.instruction
  rw [hexec] at hexecutes
  rw [step_of_next? hn, hexec]
  obtain ⟨base, _ | ⟨fp, ip⟩⟩ := exit
  · exact ⟨⟨hexecutes.reports_settle nofun, _, rfl⟩, nofun⟩
  · refine ⟨⟨hexecutes.reports_settle nofun, _, rfl⟩, fun fp' ip' h => ?_⟩
    cases h
    rfl

theorem Activation.within (hc : m₀.Calls d argc ip count) (h : Activation m₀ m) :
    Within m₀ d ip count m ∧ m₀.callDepth < m.callDepth := by
  induction h with
  | entered ha =>
    rw [hc.step_eq] at ha ⊢
    exact ⟨hc.within_enter ha, Nat.lt_succ_self _⟩
  | @step m _ hin hlive ha ih =>
    refine ⟨?_, hlive⟩
    obtain ⟨hw, -⟩ := ih
    have hfits := step_fits hw.fits
    rcases step_frames hw.fits hw.frames hin ha with ⟨hframes, hagree⟩ | ⟨d', hn, hleave⟩
    · exact ⟨hfits, ha, hw.below.trans hagree, hframes⟩
    · -- the callee's own frame leads back to the caller, which is excluded
      obtain ⟨withResult, result, hi, hr⟩ := hleave.leave
      have hexit := hw.frameExit_own hc hleave.fp_eq hleave.returns_eq
      have hm := (step_leave hw.fits hn hi hr hexit).2 m₀.fp d.next rfl
      rw [hm] at hlive
      have htail : m.returns.tail.height = m₀.returns.height := by
        rw [m.returns.tail.height_eq, m₀.returns.height_eq, Pile.tail]
        exact congrArg (List.length ∘ List.tail) hleave.returns_eq
      exact absurd hlive (Nat.not_lt.2 (Nat.le_of_eq htail))

/-- What a call of `m₀` with `count` arguments guarantees as long as a machine `m` has not returned from it,
and when it does. -/
structure KeepsCaller (m₀ : Machine) (argc : Word) (count : Nat) (m : Machine) : Prop where
  /-- The caller's stack, the number of arguments and the link lie below the callee's frame. -/
  below : m.stack.toList.take (m₀.stack.depth + 2) =
    m₀.stack.toList ++ [.int argc, .int (Int64.ofNat m₀.fp)]
  address : m.returns.toList.take (m₀.callDepth + 1) = m₀.returns.toList ++ [m₀.ip + 3]
  own_iff : m.fp = m₀.stack.depth + 2 ↔ m.callDepth = m₀.callDepth + 1
  /-- Argument 0 is the number of arguments, the others are those pushed last. -/
  arg : m.fp = m₀.stack.depth + 2 → ∀ d n k, m.next? = some d → d.instruction = .pushArg n →
    Word.index? n = some k → k ≤ count →
      ∃ v, (m.fetch d).execute m.ip d.instruction = (m.fetch d).onStack (m.stack.push v)
        ∧ (k = 0 → v = .int argc) ∧ ∀ j, k = j + 1 → m₀.stack.peek j = .ok v
  clear : ∀ d, m.next? = some d → d.instruction = .leave false →
    m.step.reports = [] ∧ ∃ state, m.step.result = .ok state
  ret : ∀ d, m.next? = some d → d.instruction = .leave true → m.fp < m.stack.depth →
    m.step.reports = [] ∧ ∃ state, m.step.result = .ok state
  /-- The frame that is left at the return is the callee's own, and the caller goes on behind the call. -/
  returned : m.step.machine.callDepth ≤ m₀.callDepth →
    ∃ d withResult result, m.next? = some d ∧ d.instruction = .leave withResult
      ∧ m.fp = m₀.stack.depth + 2 ∧ m.frameResult withResult = .ok result
      ∧ m.step.machine.stack.toList = m₀.stack.toList.take (m₀.stack.depth - count) ++ result.toList
      ∧ m.step.machine.fp = m₀.fp ∧ m.step.machine.ip = m₀.ip + 3
      ∧ m.step.machine.returns = m₀.returns ∧ m.step.machine.state = .running

/-- Calls restore the caller exactly, however calls, returns and survived faults are nested between. -/
theorem call_keeps_caller (hc : m₀.Calls d argc ip count) (h : Activation m₀ m) :
    m₀.KeepsCaller argc count m := by
  obtain ⟨hw, hlive⟩ := h.within hc
  obtain ⟨base, fp, next, hexit⟩ := hw.frameExit_ok hc
  constructor
  case below => exact hw.toList_below hc
  case address => exact hw.returns_below hc
  case own_iff => exact hw.fp_eq_iff
  case arg =>
    intro hfp d' n k hn hi hindex hk
    obtain ⟨v, hget, hv⟩ := hw.getArg_own hc hfp hindex hk
    refine ⟨v, ?_, hv⟩
    rw [hi, execute, pushArg]
    change (m.fetch d').onStack (do m.stack.push (← m.stack.getArg m.fp n)) = _
    rw [hget]
    rfl
  case clear =>
    intro d' hn hi
    exact (step_leave hw.fits hn hi frameResult_false hexit).1
  case ret =>
    intro d' hn hi hlt
    obtain ⟨v, hv, -⟩ := OperandStack.peek_zero (Nat.zero_lt_of_lt hlt)
    exact (step_leave hw.fits hn hi (frameResult_true_eq_ok.2 ⟨hlt, v, hv, rfl⟩) hexit).1
  case returned =>
    intro hgone
    obtain ⟨d', withResult, result, hn, hi, hr⟩ := leave_of_callDepth_lt hw.fits (by omega)
    have hown : m.callDepth ≤ m₀.callDepth + 1 := by
      rw [(step_leave hw.fits hn hi hr hexit).2 fp next rfl] at hgone
      exact Nat.sub_le_iff_le_add.1 hgone
    obtain ⟨hfp, hreturns⟩ := hw.own_of_callDepth hown
    have hm := (step_leave hw.fits hn hi hr (hw.frameExit_own hc hfp hreturns)).2 m₀.fp d.next rfl
    refine ⟨d', withResult, result, hn, hi, hfp, hr, ?_, ?_, ?_, ?_, ?_⟩ <;> rw [hm]
    · exact hw.toList_cut_own hc result
    · exact hc.next_address
    · exact Pile.eq_of_topDown (congrArg List.tail hreturns)
    · exact (decodes_of_next? hn).running

/-- A callee that returns the last of its two arguments. -/
theorem call_keeps_caller_second :
    ∃ m₀ d m, m₀.Calls d 2 6 2 ∧ Activation m₀ m ∧ m.step.machine.callDepth ≤ m₀.callDepth
      ∧ m₀.KeepsCaller 2 2 m := by
  let code : Array Word := #[Opcode.iconst1.word, Opcode.iconst2.word, Opcode.call.word, 6, 2,
    Opcode.halt.word, Opcode.arg.word, 1, Opcode.ret.word]
  let m₀ : Machine := { Machine.start ⟨code, .empty, .empty, .empty⟩ .unlimited with
    ip := 2, stack := ⟨.ofList [.int 1, .int 2], 0⟩ }
  let d : Decoded := ⟨.call, 6, 2, 5⟩
  let m₁ := (m₀.fetch d).enter 6 2
  let d₁ : Decoded := ⟨.arg, 1, 0, 8⟩
  let m₂ : Machine := { m₁.fetch d₁ with stack := m₁.stack.put (.int 2) }
  let d₂ : Decoded := ⟨.ret, 0, 0, 9⟩
  have hn : m₀.next? = some d := by
    simp [next?, m₀, code, d, Machine.start, decode, isBudgetExhausted, Config.default, Except.toOption,
      Opcode.arity]
  have hn₁ : m₁.next? = some d₁ := by
    simp [next?, m₁, m₀, code, d, d₁, enter, fetch, Machine.start, decode, isBudgetExhausted,
      Config.default, Except.toOption, Opcode.arity]
  have hn₂ : m₂.next? = some d₂ := by
    simp [next?, m₂, m₁, m₀, code, d, d₁, d₂, enter, fetch, Machine.start, decode, isBudgetExhausted,
      Config.default, Except.toOption, Opcode.arity]
  have hcalls : m₀.Calls d 2 6 2 := ⟨hn, of_decide_eq_true rfl, 6, rfl, rfl⟩
  have hm₁ : m₀.step.machine = m₁ := hcalls.step_eq
  have hm₂ : m₁.step.machine = m₂ := by
    rw [step_of_next? hn₁]
    rfl
  have hin : m₁.InFrame := by
    intro d' hd' _
    rw [hn₁] at hd'
    cases hd'
    exact Nat.zero_le _
  have hact : Activation m₀ m₂ := by
    rw [← hm₂, ← hm₁]
    refine .step (.entered ?_) ?_ ?_ ?_ <;> rw [hm₁]
    · exact of_decide_eq_true rfl
    · exact hin
    · rw [hm₂]
      exact of_decide_eq_true rfl
    · rw [hm₂]
      exact of_decide_eq_true rfl
  refine ⟨m₀, d, m₂, hcalls, hact, ?_, call_keeps_caller hcalls hact⟩
  rw [step_of_next? hn₂]
  exact of_decide_eq_true rfl

end StackMachine.Machine

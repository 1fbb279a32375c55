import StackMachine.Proofs.Machine.Faults
import StackMachine.Proofs.Machine.Settings
import StackMachine.Proofs.Program.Table

/-!
The limits of a machine hold at all times.  No instruction puts more on the stack than it has asked room for,
and one that is refused for a limit would exceed it: without the limits it succeeds and gets deeper.
-/

set_option autoImplicit false

namespace StackMachine

/-- The instruction leaves more values on the stack than it takes. -/
def Instruction.grows : Instruction → Bool
  | .push _ | .constant .. | .duplicate _ | .alloc _ | .pushArg _ | .pushLocal _ | .call .. => true
  | _ => false

/-- The configuration without its limits on the stack and on calls. -/
def Config.deep (c : Config) : Config := { c with maxStackDepth := 0, maxCallDepth := 0 }

namespace OperandStack

variable {s : OperandStack} {n : Nat} {cause : Cause}

theorem lt_of_reserve (h : s.reserve n = .error cause) : 0 < s.limit ∧ s.limit < s.depth + n := by
  rw [reserve] at h
  split at h
  · omega
  · cases h

theorem reserve_withLimit_zero (s : OperandStack) (n : Nat) : (s.withLimit 0).reserve n = .ok () :=
  reserve_eq_ok.2 fun hpos => absurd hpos (Nat.lt_irrefl 0)

theorem kind_ne_of_operands (h : cause.LiesInOperands) : cause.kind ≠ .stackOverflow := by
  intro hk
  apply Machine.kind_of_operands h
  rw [hk]
  exact of_decide_eq_true rfl

/-- The limit of `s` has no room for a stack that can be made without it. -/
def LacksRoom (s : OperandStack) (r : Except Cause OperandStack) : Prop :=
  ∃ t, r = .ok t ∧ 0 < s.limit ∧ s.limit < t.depth

theorem push_over {v : Value} (h : s.push v = .error cause) : s.LacksRoom ((s.withLimit 0).push v) :=
  ⟨(s.withLimit 0).put v, push_eq_ok.2 ⟨reserve_withLimit_zero s 1, rfl⟩, lt_of_reserve (push_eq_error.1 h)⟩

theorem duplicate_over (h : s.duplicate n = .error cause) (hk : cause.kind = .stackOverflow) :
    s.LacksRoom ((s.withLimit 0).duplicate n) := by
  rcases bind_eq_error.1 h with h | ⟨_, hn, h⟩
  · exact absurd hk (kind_ne_of_operands (onOperands_require n cause h))
  · rcases bind_eq_error.1 h with h | ⟨_, -, h⟩
    · have hle := require_eq_ok.1 hn
      obtain ⟨hpos, hlt⟩ := lt_of_reserve h
      refine ⟨_, duplicate_eq_ok.2 ⟨hle, reserve_withLimit_zero s n, rfl⟩, hpos, ?_⟩
      change s.limit < (s.values.topDown.take n).length + s.depth
      rw [List.length_take, ← depth_eq_length]
      omega
    · cases h

theorem alloc_over (h : s.alloc n = .error cause) : s.LacksRoom ((s.withLimit 0).alloc n) := by
  rcases bind_eq_error.1 h with h | ⟨_, -, h⟩
  · obtain ⟨hpos, hlt⟩ := lt_of_reserve h
    refine ⟨_, alloc_eq_ok.2 ⟨reserve_withLimit_zero s n, rfl⟩, hpos, ?_⟩
    change s.limit < (List.replicate n Value.null).length + s.depth
    rw [List.length_replicate]
    omega
  · cases h

end OperandStack

namespace Machine

open OperandStack

variable {m : Machine} {i : Instruction} {cause : Cause} {c : Config}

/-! ## Instructions that are refused for a limit -/

def deep (m : Machine) : Machine := m.under m.config.deep

theorem bind_push_over {r : Except Cause Value} (hr : ∀ cause, r = .error cause → cause.kind ≠ .stackOverflow)
    (h : (do m.stack.push (← r)) = .error cause) (hk : cause.kind = .stackOverflow) :
    m.stack.LacksRoom (do m.deep.stack.push (← r)) := by
  rcases bind_eq_error.1 h with h | ⟨v, rfl, h⟩
  · exact absurd hk (hr cause h)
  · exact push_over h

/-- A stack that is refused for the limit is computed without it, and is deeper than the limit. -/
theorem computed?_over (h : m.computed? i = some (.error cause)) (hk : cause.kind = .stackOverflow) :
    i.grows = true ∧ ∃ r, m.deep.computed? i = some r ∧ m.stack.LacksRoom r := by
  have hop : ∀ {r : Except Cause OperandStack}, OnOperands r → some r ≠ some (.error cause) :=
    fun hr h => kind_ne_of_operands (hr cause (Option.some.inj h)) hk
  cases i with
  | push v => exact ⟨rfl, _, rfl, push_over (Option.some.inj h)⟩
  | constant pool index =>
    refine ⟨rfl, _, rfl, bind_push_over (r := m.constant pool index) (fun cause h => ?_) (Option.some.inj h) hk⟩
    rw [constant_eq_error h]
    nofun
  | pushArg n =>
    have hget := fun cause h => kind_ne_of_operands (onOperands_getArg (s := m.stack) m.fp n cause h)
    exact ⟨rfl, _, rfl, bind_push_over hget (Option.some.inj h) hk⟩
  | pushLocal n =>
    have hget := fun cause h => kind_ne_of_operands (onOperands_getLocal (s := m.stack) m.fp n cause h)
    exact ⟨rfl, _, rfl, bind_push_over hget (Option.some.inj h) hk⟩
  | duplicate n => exact ⟨rfl, _, rfl, duplicate_over (Option.some.inj h) hk⟩
  | alloc n =>
    refine ⟨rfl, _, rfl, ?_⟩
    rw [computed?] at h
    cases hn : Word.index? n with
    | none =>
      rw [hn] at h
      cases h
      cases hk
    | some slots =>
      rw [hn] at h
      exact alloc_over (Option.some.inj h)
  | drop => exact absurd h (hop ((onOperands_require 1).bind fun _ => .ok _))
  | rotate n k => exact absurd h (hop ((onOperands_require n).bind fun _ => .ok _))
  | operate op => exact absurd h (hop ((op.onOperands_result m.stack).bind fun _ => .ok _))
  | popLocal n => exact absurd h (hop (onOperands_setLocal m.fp n))
  | _ => cases h

/-- The machine is deeper than the limits of `c` allow. -/
def Exceeds (m : Machine) (c : Config) : Prop :=
  0 < c.maxStackDepth ∧ c.maxStackDepth < m.stack.depth ∨
    0 < c.maxCallDepth ∧ c.maxCallDepth < m.callDepth

theorem call_over (hlimit : m.stack.limit = m.config.maxStackDepth) {target argc : Word}
    (h : m.checkCall target argc = .error cause) (hk : cause.kind = .stackOverflow) :
    ∃ ip count, m.deep.checkCall target argc = .ok (ip, count)
      ∧ (m.deep.enter ip count).Exceeds m.config := by
  rcases bind_eq_error.1 h with h | ⟨ip, hip, h⟩
  · rw [jumpTarget_eq_error h] at hk
    cases hk
  rcases bind_eq_error.1 h with h | ⟨count, hcount, h⟩
  · exact absurd hk (kind_ne_of_operands (onOperands_argumentCount argc cause h))
  have hip' : m.deep.jumpTarget target = .ok ip := hip
  have hcount' : m.deep.argumentCount argc = .ok count := hcount
  have hcheck : m.deep.checkCall target argc = .ok (ip, count) := by
    rw [checkCall, hip', ok_bind, hcount', ok_bind]
    have hdepth : m.deep.checkCallDepth = .ok () :=
      checkCallDepth_eq_ok.2 fun hfull => absurd hfull.1 (Nat.lt_irrefl 0)
    have hroom : m.deep.stack.reserve 2 = .ok () := reserve_withLimit_zero m.stack 2
    rw [hdepth, ok_bind, hroom]
    rfl
  refine ⟨ip, count, hcheck, ?_⟩
  rcases bind_eq_error.1 h with h | ⟨_, -, h⟩
  · rw [checkCallDepth] at h
    split at h
    · next hfull => exact .inr ⟨hfull.1, Nat.lt_succ_of_le hfull.2⟩
    · cases h
  · rcases bind_eq_error.1 h with h | ⟨_, -, h⟩
    · obtain ⟨hpos, hlt⟩ := lt_of_reserve h
      rw [hlimit] at hpos hlt
      exact .inl ⟨hpos, hlt⟩
    · cases h

/-- An instruction that is refused for a limit does what it is for without the limits, and exceeds one of
them. -/
theorem Refuses.over (h : m.Refuses i cause) (hk : cause.kind = .stackOverflow)
    (hlimit : m.stack.limit = m.config.maxStackDepth) (start : Nat) :
    i.grows = true ∧ ∃ next notices, m.deep.execute start i = ⟨next, notices, none⟩
      ∧ next.Exceeds m.config := by
  cases h with
  | computing h =>
    obtain ⟨hi, _, hs, s, rfl, hpos, hlt⟩ := computed?_over h hk
    rw [hlimit] at hpos hlt
    exact ⟨hi, { m.deep with stack := s }, [], execute_computed hs, .inl ⟨hpos, hlt⟩⟩
  | calling hi h =>
    obtain ⟨ip, count, hcheck, hover⟩ := call_over hlimit h hk
    subst hi
    refine ⟨rfl, m.deep.enter ip count, [.called ip count (m.stack.depth + 2)], ?_, hover⟩
    rw [execute, call, hcheck]
    rfl
  | writing h => exact absurd hk (kind_ne_of_operands (onOperands_written h cause rfl))
  | going h =>
    rcases destination?_eq_error h with ⟨target, -, h⟩ | h
    · rw [jumpTarget_eq_error h] at hk
      cases hk
    · exact absurd hk (kind_ne_of_operands h)
  | returning _ h => exact absurd hk (kind_ne_of_operands (onOperands_frameResult _ cause h))
  | leaving _ h => exact absurd hk (kind_ne_of_operands (onOperands_frameExit cause h))

theorem Raises.over {m₁ : Machine} (h : m.Raises m₁ cause) (hk : cause.kind = .stackOverflow)
    (hlimit : m.stack.limit = m.config.maxStackDepth) :
    ∃ d, m.next? = some d ∧ d.instruction.grows = true ∧ ∃ next notices,
      (m.fetch d).deep.execute m.ip d.instruction = ⟨next, notices, none⟩ ∧ next.Exceeds m.config := by
  cases h with
  | exhausted => cases hk
  | undecoded _ hd =>
    rcases decode_eq_error hd with ⟨-, rfl⟩ | ⟨op, -, -, rfl⟩ <;> cases hk
  | @refused d cause hn h => exact ⟨d, hn, h.over hk hlimit m.ip⟩

/-! ## One step -/

/-- The machine is not deeper than the limits of `c` allow, and has not executed more instructions.  A limit
of zero is none, and so is one that the largest number for a depth does not exceed. -/
structure WithinLimits (m : Machine) (c : Config) : Prop where
  stack : 0 < c.maxStackDepth → m.stack.depth ≤ c.maxStackDepth ∨ largestDepth ≤ c.maxStackDepth
  calls : 0 < c.maxCallDepth → m.callDepth ≤ c.maxCallDepth
  executed : 0 < c.maxInstructions → m.executed ≤ c.maxInstructions

theorem Executes.calls_le {start : Nat} {e : Execution} (h : m.Executes start i e)
    (hm : 0 < m.config.maxCallDepth → m.callDepth ≤ m.config.maxCallDepth)
    (hpos : 0 < m.config.maxCallDepth) : e.machine.callDepth ≤ m.config.maxCallDepth := by
  have hle := hm hpos
  cases h with
  | called _ h =>
    obtain ⟨-, -, -, hdepth, -⟩ := checkCall_eq_ok h
    have hfree := checkCallDepth_eq_ok.1 hdepth
    change m.callDepth + 1 ≤ m.config.maxCallDepth
    omega
  | resumed => exact Nat.le_trans (Nat.sub_le m.callDepth 1) hle
  | _ => exact hle

theorem lt_of_isBudgetExhausted (hb : m.isBudgetExhausted = false) (hpos : 0 < m.config.maxInstructions) :
    m.executed < m.config.maxInstructions := by
  simp [isBudgetExhausted] at hb
  omega

theorem executed_step_le (fits : m.stack.Fits)
    (hm : 0 < m.config.maxInstructions → m.executed ≤ m.config.maxInstructions)
    (hpos : 0 < m.config.maxInstructions) : m.step.machine.executed ≤ m.config.maxInstructions := by
  have hsteps := steps m
  generalize hr : m.step = r at hsteps
  cases hsteps with
  | stopped | ended => exact hm hpos
  | exhausted => rw [raise_machine]; exact hm hpos
  | undecoded _ _ hb => rw [raise_machine]; exact lt_of_isBudgetExhausted hb hpos
  | performed hn =>
    rw [← hr, executed_of_next? fits hn]
    exact lt_of_isBudgetExhausted (decodes_of_next? hn).within hpos

theorem le_of_fits {s : OperandStack} (fits : s.Fits) (hlimit : s.limit = c.maxStackDepth)
    (hpos : 0 < c.maxStackDepth) : s.depth ≤ c.maxStackDepth ∨ largestDepth ≤ c.maxStackDepth := by
  rw [Fits, hlimit] at fits
  have hle := fits hpos
  omega

theorem step_withinLimits (fits : m.stack.Fits) (hm : m.WithinLimits m.config)
    (hlimit : m.stack.limit = m.config.maxStackDepth) : m.step.machine.WithinLimits m.config := by
  constructor
  case stack => exact le_of_fits (step_fits fits) ((step_sameSettings fits).limit_eq.trans hlimit)
  case calls =>
    intro hpos
    cases lands fits with
    | stays executed count sink state h => rw [h]; exact hm.calls hpos
    | executes _ he _ count sink state h => rw [h]; exact he.calls_le hm.calls hpos
  case executed => exact executed_step_le fits hm.executed

/-! ## All that a host asks for -/

section Reachable

variable {program : Program} {config : Config} {sink : Sink}

theorem Reachable.config_eq (h : Reachable program config sink m) :
    m.config = config ∧ m.stack.limit = config.maxStackDepth :=
  ⟨h.sameSettings.config_eq, h.sameSettings.limit_eq⟩

theorem Reachable.withinLimits (h : Reachable program config sink m) : m.WithinLimits config := by
  induction h with
  | configured => exact ⟨fun _ => .inl (Nat.zero_le _), fun _ => Nat.zero_le _, fun _ => Nat.zero_le _⟩
  | @load m args h ih =>
    have hlimit := (load_sameSettings m args).limit_eq.trans h.config_eq.2
    have hkept : (m.load args).machine.callDepth = m.callDepth
        ∧ (m.load args).machine.executed = m.executed := by
      rcases load_cases m args with ⟨e, he⟩ | ⟨-, -, -, stack, -, he⟩ <;> rw [he] <;> exact ⟨rfl, rfl⟩
    exact ⟨le_of_fits (load_fits args h.fits) hlimit, hkept.1 ▸ ih.calls, hkept.2 ▸ ih.executed⟩
  | @step m h ih =>
    obtain ⟨hconfig, hlimit⟩ := h.config_eq
    rw [← hconfig] at ih hlimit ⊢
    exact step_withinLimits h.fits ih hlimit
  | @finish m h ih =>
    obtain ⟨sink, he⟩ := finish_machine m
    rw [he]
    exact ⟨ih.stack, ih.calls, ih.executed⟩

/-- The limits of `c` hold in a machine and after all that a host may ask of it, and they refuse nothing that
would keep within them. -/
structure Enforces (m : Machine) (c : Config) : Prop where
  within : m.WithinLimits c
  requests : ∀ requests : List Request, (requests.foldl answer m).WithinLimits c
  /-- Without the limits, the instruction that is refused is completed and exceeds one of them. -/
  refused : ∀ report ∈ m.step.reports, report.kind = .stackOverflow →
    ∃ d, m.next? = some d ∧ d.instruction.grows = true ∧ ∃ next notices,
      ((m.fetch d).under c.deep).execute m.ip d.instruction = ⟨next, notices, none⟩ ∧ next.Exceeds c
  loading : ∀ args cause, (m.load args).result = .error (.load cause) →
    cause.kind = .stackOverflow ∧ 0 < c.maxStackDepth ∧ c.maxStackDepth < m.stack.depth + (args.length + 2)

theorem load_refused {args : List Value} (h : (m.load args).result = .error (.load cause)) :
    m.stack.reserve (args.length + 2) = .error cause := by
  rw [load] at h
  split at h
  · cases h
  · split at h
    · next hroom =>
      cases h
      exact hroom
    · cases h

theorem Reachable.answers (h : Reachable program config sink m) (requests : List Request) :
    Reachable program config sink (requests.foldl Machine.answer m) := by
  induction requests generalizing m with
  | nil => exact h
  | cons request requests ih => exact ih ((stable_reachable _ _ _).answer request h)

/-- In every machine that a host gets to, the configured limits hold, and a fault for one of those on the stack
and on calls is raised only where it would be exceeded. -/
theorem configured_limits_hold (h : Reachable program config sink m) : m.Enforces config := by
  obtain ⟨rfl, hlimit⟩ := h.config_eq
  constructor
  case within => exact h.withinLimits
  case requests => exact fun requests => (h.answers requests).withinLimits
  case refused =>
    intro report hreport hk
    obtain ⟨m₁, cause, before, hraise, -, rfl⟩ := exists_raises h.fits hreport
    exact hraise.over hk hlimit
  case loading =>
    intro args cause hload
    have hroom := load_refused hload
    obtain ⟨hpos, hlt⟩ := lt_of_reserve hroom
    rw [reserve_eq_error hroom, ← hlimit]
    exact ⟨rfl, hpos, hlt⟩

end Reachable

/-- A program that calls itself is refused its second call, for which there are two slots too few. -/
theorem configured_limits_hold_recursion :
    ∃ m, Reachable ⟨#[Opcode.call.word, 0, 0], .empty, .empty, .empty⟩ ⟨2, 5, 9, false, false⟩ .unlimited m
      ∧ (∃ report ∈ m.step.reports, report.kind = .stackOverflow)
      ∧ m.Enforces ⟨2, 5, 9, false, false⟩ := by
  let program : Program := ⟨#[Opcode.call.word, 0, 0], .empty, .empty, .empty⟩
  let config : Config := ⟨2, 5, 9, false, false⟩
  let d : Decoded := ⟨.call, 0, 0, 3⟩
  let m₀ := (Machine.start program .unlimited).withConfig config
  let m₁ := (m₀.fetch d).enter 0 0
  have hn₀ : m₀.next? = some d :=
    next?_eq_some rfl rfl rfl (decode_of_le (Opcode.ofWord?_word .call) (by decide))
  have hn₁ : m₁.next? = some d :=
    next?_eq_some rfl rfl rfl (decode_of_le (Opcode.ofWord?_word .call) (by decide))
  have hm : m₀.step.machine = m₁ := by
    rw [step_of_next? hn₀]
    rfl
  have hreach : Reachable program config .unlimited m₁ := hm ▸ .step .configured
  have hfault : (m₁.fetch d).execute m₁.ip d.instruction = .fault (m₁.fetch d) (.overflow 2 2) := rfl
  refine ⟨m₁, hreach, ?_, configured_limits_hold hreach⟩
  rw [(step_of_fault hn₁ hfault).2]
  exact ⟨_, List.mem_singleton_self _, rfl⟩

end Machine

end StackMachine

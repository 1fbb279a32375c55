import StackMachine.Proofs.Machine.Faults
import StackMachine.Proofs.Machine.Reachable
import StackMachine.Proofs.Program.Table

/-!
A step that fails does nothing to the operands.  The stack, the frame and the return addresses stay, the
address is that of the instruction or the one behind it, and only the counters go on.  A fault that is
survived thus amounts to an instruction that is skipped.
-/

set_option autoImplicit false

namespace StackMachine.Machine

variable {m m₁ m' : Machine} {cause : Cause}

/-- `m'` has the stack, the frame and the return addresses of `m`, and these registers. -/
structure KeepsOperands (m m' : Machine) (ip executed faults : Nat) : Prop where
  stack_eq : m'.stack = m.stack
  fp_eq : m'.fp = m.fp
  returns_eq : m'.returns = m.returns
  ip_eq : m'.ip = ip
  executed_eq : m'.executed = executed
  count_eq : m'.reporter.count = faults

/-- The address behind the instruction at the machine's address and its operands. -/
def behind? (m : Machine) : Option Nat := do
  let op ← Opcode.ofWord? (← m.program.code[m.ip]?)
  return m.ip + 1 + op.arity

/-- The address of the machine after a fault of a kind: only a fault that is found before the operands are
taken leaves the machine at its instruction. -/
def faultAddress? (m : Machine) (kind : FaultKind) : Option Nat :=
  if kind ∈ beforeDecoding then some m.ip else m.behind?

/-- How many instructions a fault of a kind counts for. -/
def faultCost (kind : FaultKind) : Nat := if kind = .instructionLimitExceeded then 0 else 1

theorem Decodes.behind?_eq {d : Decoded} (h : m.Decodes d) : m.behind? = some d.next := by
  obtain ⟨word, hword, hop⟩ := h.code
  rw [behind?, hword]
  simp [hop, h.next_eq]

/-- Raising a fault only counts it. -/
theorem KeepsOperands.raise {ip executed faults : Nat} (h : m.KeepsOperands m₁ ip executed faults)
    (start : Nat) (cause : Cause) (before : List Notice) :
    m.KeepsOperands (m₁.raise start cause before).machine ip executed (faults + 1) := by
  rw [raise_machine]
  exact ⟨h.stack_eq, h.fp_eq, h.returns_eq, h.ip_eq, h.executed_eq, congrArg (· + 1) h.count_eq⟩

theorem Raises.keepsOperands (h : m.Raises m₁ cause) :
    ∃ ip, m.faultAddress? cause.kind = some ip
      ∧ m.KeepsOperands m₁ ip (m.executed + faultCost cause.kind) m.reporter.count := by
  cases h with
  | exhausted hb => exact ⟨m.ip, rfl, rfl, rfl, rfl, rfl, rfl, rfl⟩
  | undecoded hip hd =>
    rcases decode_eq_error hd with ⟨-, rfl⟩ | ⟨op, -, -, rfl⟩
    · exact ⟨m.ip, rfl, rfl, rfl, rfl, rfl, rfl, rfl⟩
    · exact ⟨m.ip, rfl, rfl, rfl, rfl, rfl, rfl, rfl⟩
  | @refused d cause hn h =>
    have hkind := h.refusal.kind_notMem
    have hcost : faultCost cause.kind = 1 := by
      refine if_neg fun hlimit => hkind ?_
      rw [hlimit]
      exact of_decide_eq_true rfl
    refine ⟨d.next, ?_, rfl, rfl, rfl, rfl, ?_, rfl⟩
    · rw [faultAddress?, if_neg hkind, (decodes_of_next? hn).behind?_eq]
    · rw [hcost]
      rfl

/-- A fault that is survived skips its instruction. -/
theorem Raises.survived (h : m.Raises m₁ cause) {before : List Notice} {state : RunState}
    (hresult : (m₁.raise m.ip cause before).result = .ok state) :
    cause.kind = .typeMismatch ∧ ∃ d sink, m.next? = some d
      ∧ (m₁.raise m.ip cause before).machine =
        { ((m.fetch d).execute m.ip .skip).machine with
          reporter := { m.reporter with count := m.reporter.count + 1 }, sink } := by
  obtain ⟨hstops, hkind⟩ := raise_result_eq_ok hresult
  refine ⟨hkind, ?_⟩
  cases h with
  | exhausted => cases hkind
  | undecoded _ hd =>
    rcases decode_eq_error hd with ⟨-, rfl⟩ | ⟨op, -, -, rfl⟩ <;> cases hkind
  | @refused d cause hn h =>
    refine ⟨d, ((m.fetch d).delivery m.ip cause).1, hn, ?_⟩
    rw [raise_machine, hstops]
    rfl

/-- The last step of leaving a frame with a result does not fail. -/
theorem leave_trap_eq_none (fits : m.stack.Fits) {start : Nat} {v : Value} {exit : FrameExit}
    (hr : m.frameResult true = .ok (some v)) (he : m.frameExit = .ok exit) :
    (m.execute start (.leave true)).trap = none := by
  rw [execute_leave fits start hr he]
  obtain ⟨base, _ | ⟨fp, ip⟩⟩ := exit <;> rfl

/-- All that a step does which fails: it changes no operand, and the kind of its fault tells the address
and the counters, also if the fault could not be reported. -/
structure FailsWithoutEffect (m : Machine) : Prop where
  fault : ∀ report ∈ m.step.reports, ∃ ip, m.faultAddress? report.kind = some ip
    ∧ m.KeepsOperands m.step.machine ip (m.executed + faultCost report.kind) (m.reporter.count + 1)
  output : ∀ failure, m.step.result = .error (.output failure) → m.step.reports = [] →
    ∃ ip, m.behind? = some ip ∧ m.KeepsOperands m.step.machine ip (m.executed + 1) m.reporter.count
  error : ∀ e, m.step.result = .error e →
    (∃ failure, e = .output failure) ∨ ∃ report ∈ m.step.reports, e = .fatal report
  /-- A fault that is survived skips its instruction. -/
  survived : ∀ report ∈ m.step.reports, ∀ state, m.step.result = .ok state →
    report.kind = .typeMismatch ∧ ∃ d sink, m.next? = some d
      ∧ m.step.machine =
        { ((m.fetch d).execute m.ip .skip).machine with
          reporter := { m.reporter with count := m.reporter.count + 1 }, sink }
  /-- A frame that is left with a result has room for it. -/
  result : ∀ start v exit, m.frameResult true = .ok (some v) → m.frameExit = .ok exit →
    (∃ stack, (m.stack.truncate exit.base).push v = .ok stack)
      ∧ (m.execute start (.leave true)).trap = none

/-- A step that fails changes no operand, whatever the instruction and wherever the failure comes from. -/
theorem step_failure {program : Program} {config : Config} {sink : Sink} {m : Machine}
    (h : Reachable program config sink m) (hr : m.state = .running) : m.FailsWithoutEffect := by
  have hends := ends h.fits hr
  constructor
  case fault =>
    intro report hreport
    obtain ⟨m₁, cause, before, hraise, hstep, rfl⟩ := exists_raises h.fits hreport
    obtain ⟨ip, hip, hkeeps⟩ := hraise.keepsOperands
    rw [hstep]
    exact ⟨ip, hip, hkeeps.raise m.ip cause before⟩
  case output =>
    intro failure hresult hreports
    obtain ⟨d, sink, hn, hm⟩ := hends.of_output_failure hresult hreports
    refine ⟨d.next, (decodes_of_next? hn).behind?_eq, ?_⟩
    rw [hm]
    exact ⟨rfl, rfl, rfl, rfl, rfl, rfl⟩
  case error =>
    intro e hresult
    exact hends.of_error hresult
  case survived =>
    intro report hreport state hresult
    obtain ⟨m₁, cause, before, hraise, hstep, rfl⟩ := exists_raises h.fits hreport
    rw [hstep] at hresult ⊢
    exact hraise.survived hresult
  case result =>
    intro start v exit hresult hexit
    exact ⟨⟨_, push_result h.fits hresult hexit⟩, leave_trap_eq_none h.fits hresult hexit⟩

/-- Incrementing a null is survived. -/
theorem step_failure_increment_null :
    ∃ m, Reachable ⟨#[Opcode.nullRef.word, Opcode.inc.word], .empty, .empty, .empty⟩ .default .unlimited m
      ∧ m.state = .running ∧ (∃ report ∈ m.step.reports, report.kind = .typeMismatch)
      ∧ m.FailsWithoutEffect := by
  let program : Program := ⟨#[Opcode.nullRef.word, Opcode.inc.word], .empty, .empty, .empty⟩
  let m₀ := (Machine.start program .unlimited).withConfig .default
  let m₁ := { m₀.fetch ⟨.nullRef, 0, 0, 1⟩ with stack := m₀.stack.put .null }
  have hn₀ : m₀.next? = some ⟨.nullRef, 0, 0, 1⟩ := by
    simp [next?, m₀, program, withConfig, Machine.start, decode, isBudgetExhausted, Config.default,
      Except.toOption, Opcode.arity]
  have hm : m₀.step.machine = m₁ := by
    rw [step_of_next? hn₀]
    rfl
  have hn₁ : m₁.next? = some ⟨.inc, 0, 0, 2⟩ := by
    simp [next?, m₁, m₀, program, withConfig, Machine.start, decode, isBudgetExhausted, Config.default,
      Except.toOption, Opcode.arity, fetch]
  have hreach : Reachable program .default .unlimited m₁ := hm ▸ .step .configured
  refine ⟨m₁, hreach, rfl, ?_, step_failure hreach rfl⟩
  have hfault : (m₁.fetch ⟨.inc, 0, 0, 2⟩).execute m₁.ip (Opcode.inc.instruction 0 0)
      = .fault (m₁.fetch ⟨.inc, 0, 0, 2⟩) (.value (.unsupported "increment" .null)) := rfl
  rw [(step_of_fault hn₁ hfault).2]
  exact ⟨_, List.mem_singleton_self _, rfl⟩

end StackMachine.Machine

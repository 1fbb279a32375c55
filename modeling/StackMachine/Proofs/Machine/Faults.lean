import StackMachine.Proofs.Machine.Refusal
import StackMachine.Proofs.Machine.Stepping

/-!
How a step ends: with a fault that it raises, with output that did not get through, or with neither.  A fault
is raised by the machine as it was, or by the one that has only taken its instruction from the code.
-/

set_option autoImplicit false

namespace StackMachine.Machine

variable {m m₁ : Machine} {cause : Cause}

/-! ## What a fault makes of a step -/

/-- An error of a step that raises a fault is that fault, unless it could not be reported. -/
theorem raise_result_eq_error {start : Nat} {before : List Notice} {e : MachineError}
    (h : (m.raise start cause before).result = .error e) :
    (∃ failure, e = .output failure) ∨ e = .fatal (m.reportOf start cause) := by
  rw [raise_result] at h
  split at h
  · cases h
    exact .inl ⟨_, rfl⟩
  · split at h
    · cases h
      exact .inr rfl
    · cases h

theorem kind_of_isRecoverable {kind : FaultKind} (h : kind.isRecoverable = true) :
    kind = .typeMismatch := by
  cases kind with
  | typeMismatch => rfl
  | _ => cases h

theorem isFatal_reportOf {start : Nat} :
    (m.reportOf start cause).isFatal = !(cause.kind.isRecoverable && !m.reporter.fatalTypeMismatch) := by
  change decide (m.reporter.outcome cause.kind = .abort) = _
  rw [Reporter.outcome]
  cases cause.kind.isRecoverable && !m.reporter.fatalTypeMismatch <;> rfl

/-- Only a fault of the kind that can be survived lets a machine go on. -/
theorem raise_result_eq_ok {start : Nat} {before : List Notice} {state : RunState}
    (h : (m.raise start cause before).result = .ok state) :
    m.stopsAt start cause = false ∧ cause.kind = .typeMismatch := by
  rw [raise_result] at h
  split at h
  · cases h
  · next hd =>
    split at h
    · cases h
    · next hfatal =>
      have hf : (m.reportOf start cause).isFatal = false := by simpa using hfatal
      refine ⟨by rw [stopsAt, hd, hf]; rfl, kind_of_isRecoverable ?_⟩
      rw [isFatal_reportOf, Bool.not_eq_false', Bool.and_eq_true] at hf
      exact hf.1

/-! ## The ends of a step -/

/-- The machine that raises a fault in a step of `m`, and the cause. -/
inductive Raises (m : Machine) : Machine → Cause → Prop
  | exhausted (hb : m.isBudgetExhausted = true) :
    Raises m m (.budgetExhausted m.config.maxInstructions)
  | undecoded {word : Word} {cause : Cause} (hip : m.program.code[m.ip]? = some word)
    (hd : decode m.program.code m.ip word = .error cause) :
    Raises m { m with executed := m.executed + 1 } cause
  | refused {d : Decoded} {cause : Cause} (hn : m.next? = some d)
    (h : (m.fetch d).Refuses d.instruction cause) : Raises m (m.fetch d) cause

/-- The ends of a step of a machine that is running. -/
inductive Ends (m : Machine) : Reply RunState → Prop
  | faulted {m₁ : Machine} {cause : Cause} {before : List Notice} (h : m.Raises m₁ cause)
    (hb : before.filterMap Notice.report? = []) : Ends m (m₁.raise m.ip cause before)
  | unwritten {d : Decoded} {sink : Sink} {failure : Sink.Failure} (hn : m.next? = some d) :
    Ends m ⟨{ m.fetch d with sink, state := .faulted }, m.announce d.op ++ [],
      .error (.output failure)⟩
  | went {r : Reply RunState} {state : RunState} (hr : r.reports = []) (hs : r.result = .ok state) :
    Ends m r

theorem Executes.ends {d : Decoded} {e : Execution} (hn : m.next? = some d)
    (h : (m.fetch d).Executes m.ip d.instruction e) : m.Ends (settle m.ip (m.announce d.op) e) := by
  cases h with
  | refused h =>
    refine .faulted (.refused hn h) ?_
    rw [List.filterMap_append, reports_announce]
    rfl
  | unwritten => exact .unwritten hn
  | _ =>
    refine .went ?_ rfl
    rw [Reply.reports]
    exact (List.filterMap_append ..).trans (by rw [reports_announce]; rfl)

theorem ends (fits : m.stack.Fits) (hr : m.state = .running) : m.Ends m.step := by
  have h := steps m
  generalize m.step = r at h
  cases h with
  | stopped h => exact absurd hr h
  | ended => exact .went rfl rfl
  | exhausted _ _ hb => exact .faulted (.exhausted hb) rfl
  | undecoded _ hip _ hd => exact .faulted (.undecoded hip hd) rfl
  | performed hn => exact (executes (m := m.fetch _) fits _ _).ends hn

/-- A step reports no more than the fault that it raises. -/
theorem Ends.of_report {r : Reply RunState} {report : Report} (h : m.Ends r)
    (hf : report ∈ r.reports) :
    ∃ m₁ cause before, m.Raises m₁ cause ∧ r = m₁.raise m.ip cause before
      ∧ report = m₁.reportOf m.ip cause := by
  cases h with
  | faulted h hb =>
    rw [reports_raise hb] at hf
    exact ⟨_, _, _, h, rfl, List.mem_singleton.1 hf⟩
  | unwritten hn =>
    rw [Reply.reports, List.filterMap_append, reports_announce] at hf
    cases hf
  | went hr =>
    rw [hr] at hf
    cases hf

theorem exists_raises (fits : m.stack.Fits) {report : Report} (hf : report ∈ m.step.reports) :
    ∃ m₁ cause before, m.Raises m₁ cause ∧ m.step = m₁.raise m.ip cause before
      ∧ report = m₁.reportOf m.ip cause := by
  by_cases hr : m.state = .running
  · exact (ends fits hr).of_report hf
  · rw [step_of_stopped hr] at hf
    cases hf

/-- A step that reports nothing and fails has not got the text of its instruction through. -/
theorem Ends.of_output_failure {r : Reply RunState} {failure : Sink.Failure} (h : m.Ends r)
    (hresult : r.result = .error (.output failure)) (hreports : r.reports = []) :
    ∃ d sink, m.next? = some d ∧ r.machine = { m.fetch d with sink, state := .faulted } := by
  cases h with
  | faulted _ hb =>
    rw [reports_raise hb] at hreports
    cases hreports
  | unwritten hn => exact ⟨_, _, hn, rfl⟩
  | went _ hs =>
    rw [hs] at hresult
    cases hresult

theorem Ends.of_error {r : Reply RunState} {e : MachineError} (h : m.Ends r)
    (hresult : r.result = .error e) :
    (∃ failure, e = .output failure) ∨ ∃ report ∈ r.reports, e = .fatal report := by
  cases h with
  | faulted _ hb =>
    rw [reports_raise hb]
    rcases raise_result_eq_error hresult with hout | hfatal
    · exact .inl hout
    · exact .inr ⟨_, List.mem_singleton_self _, hfatal⟩
  | unwritten =>
    cases hresult
    exact .inl ⟨_, rfl⟩
  | went _ hs =>
    rw [hs] at hresult
    cases hresult

/-! ## The kinds of faults -/

/-- A word that cannot be decoded is no operation or lacks operands. -/
theorem decode_eq_error {code : Array Word} {ip : Nat} {word : Word}
    (h : decode code ip word = .error cause) :
    Opcode.ofWord? word = none ∧ cause = .unknownOpcode word ∨
      ∃ op, Opcode.ofWord? word = some op ∧ code.size < ip + 1 + op.arity
        ∧ cause = .truncated op code.size := by
  rw [decode] at h
  cases hop : Opcode.ofWord? word with
  | none =>
    rw [hop] at h
    cases h
    exact .inl ⟨rfl, rfl⟩
  | some op =>
    rw [hop] at h
    by_cases hle : ip + 1 + op.arity ≤ code.size
    · simp [if_pos hle] at h
    · simp only [if_neg hle] at h
      cases h
      exact .inr ⟨op, rfl, Nat.lt_of_not_le hle, rfl⟩

/-- The kinds of the faults that are raised without an instruction. -/
def beforeDecoding : List FaultKind := [.unknownOpcode, .truncatedInstruction, .instructionLimitExceeded]

/-- The kinds of the faults that lie in the code. -/
def structuralKinds : List FaultKind :=
  [.unknownOpcode, .truncatedInstruction, .invalidJumpTarget, .invalidConstant]

/-- The kinds of the faults that lie in a limit. -/
def limitKinds : List FaultKind := [.stackOverflow, .instructionLimitExceeded]

theorem kind_of_operands (h : cause.LiesInOperands) :
    cause.kind ∉ structuralKinds ++ limitKinds := by
  have horigin := h.origin
  cases cause with
  | value e => cases e <;> exact of_decide_eq_true rfl
  | overflow | callDepth | budgetExhausted | noConstant | jumpTarget | unknownOpcode | truncated => cases horigin
  | _ => exact of_decide_eq_true rfl

theorem constant_eq_error {pool : Program.PoolName} {index : Word}
    (h : m.constant pool index = .error cause) : cause = .noConstant pool index := by
  unfold constant at h
  dsimp only at h
  split at h
  · cases h
  · cases h
    rfl

theorem jumpTarget_eq_error {target : Word} (h : m.jumpTarget target = .error cause) :
    cause = .jumpTarget target m.program.code.size := by
  rw [jumpTarget] at h
  split at h
  · split at h
    · cases h
    · cases h
      rfl
  · cases h
    rfl

theorem Refusal.kind_notMem {i : Instruction} (h : m.Refusal i cause) :
    cause.kind ∉ beforeDecoding := by
  cases h with
  | operands h =>
    have hsub : ∀ kind ∈ beforeDecoding, kind ∈ structuralKinds ++ limitKinds := of_decide_eq_true rfl
    exact fun hmem => kind_of_operands h (hsub _ hmem)
  | room h => rw [OperandStack.reserve_eq_error h]; exact of_decide_eq_true rfl
  | calls _ _ h => rw [h]; exact of_decide_eq_true rfl
  | constant _ h => rw [constant_eq_error h]; exact of_decide_eq_true rfl
  | target _ h => rw [jumpTarget_eq_error h]; exact of_decide_eq_true rfl

end StackMachine.Machine

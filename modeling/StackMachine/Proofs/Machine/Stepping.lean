import StackMachine.Proofs.Machine.Effect
import StackMachine.Proofs.Machine.Output

/-!
All that a step can do.  A step finds the machine stopped, the code at its end, the budget used up or no
instruction, or it executes one; a fault of any of these is raised in one way.
-/

set_option autoImplicit false

namespace StackMachine

/-- The report that a notice announces. -/
def Notice.report? : Notice → Option Report
  | reported report => some report
  | _ => none

/-- The faults that are let known. -/
def Reply.reports {α : Type} (r : Reply α) : List Report := r.notices.filterMap Notice.report?

namespace Machine

variable {m : Machine} {start : Nat} {cause : Cause} {before : List Notice}

/-! ## Raising a fault -/

/-- The report of a fault of the instruction at `start`. -/
def reportOf (m : Machine) (start : Nat) (cause : Cause) : Report :=
  (m.reporter.report cause.fault start m.program.code m.stack).1

/-- What becomes of the report of a fault. -/
def delivery (m : Machine) (start : Nat) (cause : Cause) : Sink × Option Sink.Failure :=
  deliver m.sink (m.reportOf start cause)

/-- Whether a fault stops the machine, by its kind or because it cannot be reported. -/
def stopsAt (m : Machine) (start : Nat) (cause : Cause) : Bool :=
  (m.delivery start cause).2.isSome || (m.reportOf start cause).isFatal

theorem raise_eq :
    m.raise start cause before =
      match m.delivery start cause with
      | (sink, some failure) =>
        ⟨{ m with
            reporter := { m.reporter with count := m.reporter.count + 1 }, sink, state := .faulted },
          before ++ [.faulted cause.kind start, .reported (m.reportOf start cause)],
          .error (.output failure)⟩
      | (sink, none) =>
        if (m.reportOf start cause).isFatal then
          ⟨{ m with
              reporter := { m.reporter with count := m.reporter.count + 1 }, sink, state := .faulted },
            before ++ [.faulted cause.kind start, .reported (m.reportOf start cause)],
            .error (.fatal (m.reportOf start cause))⟩
        else
          ⟨{ m with reporter := { m.reporter with count := m.reporter.count + 1 }, sink },
            before ++ [.faulted cause.kind start, .reported (m.reportOf start cause)], .ok m.state⟩ :=
  rfl

theorem raise_machine :
    (m.raise start cause before).machine =
      { m with
        reporter := { m.reporter with count := m.reporter.count + 1 }
        sink := (m.delivery start cause).1
        state := if m.stopsAt start cause then .faulted else m.state } := by
  rw [raise_eq, stopsAt]
  rcases m.delivery start cause with ⟨sink, _ | failure⟩
  · cases (m.reportOf start cause).isFatal <;> rfl
  · rfl

theorem raise_notices :
    (m.raise start cause before).notices =
      before ++ [.faulted cause.kind start, .reported (m.reportOf start cause)] := by
  rw [raise_eq]
  rcases m.delivery start cause with ⟨sink, _ | failure⟩
  · cases (m.reportOf start cause).isFatal <;> rfl
  · rfl

theorem raise_result :
    (m.raise start cause before).result =
      match (m.delivery start cause).2 with
      | some failure => .error (.output failure)
      | none =>
        if (m.reportOf start cause).isFatal then .error (.fatal (m.reportOf start cause))
        else .ok m.state := by
  rw [raise_eq]
  rcases m.delivery start cause with ⟨sink, _ | failure⟩
  · cases (m.reportOf start cause).isFatal <;> rfl
  · rfl

/-! ## Reports that get through -/

theorem stopsAt_of_neverFails (h : m.sink.NeverFails) (start : Nat) (cause : Cause) :
    m.stopsAt start cause = (m.reportOf start cause).isFatal := by
  rw [stopsAt, delivery, deliver_eq h]
  rfl

theorem neverFails_delivery (h : m.sink.NeverFails) (start : Nat) (cause : Cause) :
    (m.delivery start cause).1.NeverFails := by
  rw [delivery, deliver_eq h, h.write_eq]
  exact (h.accept _).flush

theorem written_delivery (h : m.sink.NeverFails) (start : Nat) (cause : Cause) :
    (m.delivery start cause).1.written =
      m.sink.written ++ ByteString.ofString (m.reportOf start cause).display := by
  rw [delivery, deliver_eq h, h.write_eq]
  exact (Sink.written_flush _).trans (Sink.written_accept _ _)

/-! ## The instruction of a step -/

/-- The instruction that the next step executes, if it gets to one. -/
def next? (m : Machine) : Option Decoded :=
  match m.state, m.program.code[m.ip]? with
  | .running, some word =>
    if m.isBudgetExhausted then none else (decode m.program.code m.ip word).toOption
  | _, _ => none

/-- The machine that has taken an instruction from the code and is about to execute it. -/
def fetch (m : Machine) (d : Decoded) : Machine :=
  { m with executed := m.executed + 1, ip := d.next }

/-- The instruction lies in the code and all of its operands do. -/
structure Decodes (m : Machine) (d : Decoded) : Prop where
  running : m.state = .running
  within : m.isBudgetExhausted = false
  code : ∃ word, m.program.code[m.ip]? = some word ∧ Opcode.ofWord? word = some d.op
  next_eq : d.next = m.ip + 1 + d.op.arity
  next_le : d.next ≤ m.program.code.size

theorem decode_eq_ok {code : Array Word} {ip : Nat} {word : Word} {d : Decoded}
    (h : decode code ip word = .ok d) :
    Opcode.ofWord? word = some d.op ∧ d.next = ip + 1 + d.op.arity ∧ d.next ≤ code.size := by
  rw [decode] at h
  cases hop : Opcode.ofWord? word with
  | none => simp [hop] at h
  | some op =>
    rw [hop] at h
    by_cases hle : ip + 1 + op.arity ≤ code.size
    · simp only [if_pos hle] at h
      cases h
      exact ⟨rfl, rfl, hle⟩
    · simp [if_neg hle] at h

theorem decode_of_le {code : Array Word} {ip : Nat} {word : Word} {op : Opcode}
    (hop : Opcode.ofWord? word = some op) (hle : ip + 1 + op.arity ≤ code.size) :
    decode code ip word = .ok {
      op
      first := if 0 < op.arity then code.getD (ip + 1) 0 else 0
      second := if 1 < op.arity then code.getD (ip + 2) 0 else 0
      next := ip + 1 + op.arity } := by
  rw [decode, hop]
  exact if_pos hle

theorem decode_of_next? {d : Decoded} (h : m.next? = some d) :
    m.state = .running ∧ m.isBudgetExhausted = false
      ∧ ∃ word, m.program.code[m.ip]? = some word ∧ decode m.program.code m.ip word = .ok d := by
  rw [next?] at h
  split at h
  · next word hr hword =>
    split at h
    · cases h
    · next hb =>
      cases hd : decode m.program.code m.ip word with
      | error cause => rw [hd] at h; cases h
      | ok d' =>
        rw [hd] at h
        cases h
        exact ⟨hr, by simpa using hb, word, hword, hd⟩
  · cases h

theorem decodes_of_next? {d : Decoded} (h : m.next? = some d) : m.Decodes d := by
  obtain ⟨hr, hb, word, hword, hd⟩ := decode_of_next? h
  obtain ⟨hop, hnext, hle⟩ := decode_eq_ok hd
  exact ⟨hr, hb, ⟨word, hword, hop⟩, hnext, hle⟩

/-- The outcomes of a step. -/
inductive Steps (m : Machine) : Reply RunState → Prop
  | stopped (hr : m.state ≠ .running) : Steps m ⟨m, [], .error (.notRunning m.state)⟩
  | ended (hr : m.state = .running) (hip : m.program.code[m.ip]? = none) :
    Steps m ⟨{ m with state := .halted }, [.ranPastEnd m.ip], .ok .halted⟩
  | exhausted {word : Word} (hr : m.state = .running) (hip : m.program.code[m.ip]? = some word)
    (hb : m.isBudgetExhausted = true) :
    Steps m (m.raise m.ip (.budgetExhausted m.config.maxInstructions) [])
  | undecoded {word : Word} {cause : Cause} (hr : m.state = .running)
    (hip : m.program.code[m.ip]? = some word) (hb : m.isBudgetExhausted = false)
    (hd : decode m.program.code m.ip word = .error cause) :
    Steps m ({ m with executed := m.executed + 1 }.raise m.ip cause [])
  | performed {d : Decoded} (hn : m.next? = some d) :
    Steps m (settle m.ip (m.announce d.op) ((m.fetch d).execute m.ip d.instruction))

theorem step_of_stopped (hr : m.state ≠ .running) : m.step = ⟨m, [], .error (.notRunning m.state)⟩ := by
  rw [step]
  split
  · next h => exact absurd h hr
  · rfl

theorem step_of_end (hr : m.state = .running) (hip : m.program.code[m.ip]? = none) :
    m.step = ⟨{ m with state := .halted }, [.ranPastEnd m.ip], .ok .halted⟩ := by
  rw [step, hr, hip]

theorem step_of_exhausted {word : Word} (hr : m.state = .running)
    (hip : m.program.code[m.ip]? = some word) (hb : m.isBudgetExhausted = true) :
    m.step = m.raise m.ip (.budgetExhausted m.config.maxInstructions) [] := by
  rw [step, hr, hip]
  exact if_pos hb

theorem step_of_decode_error {word : Word} (hr : m.state = .running)
    (hip : m.program.code[m.ip]? = some word) (hb : m.isBudgetExhausted = false)
    (hd : decode m.program.code m.ip word = .error cause) :
    m.step = { m with executed := m.executed + 1 }.raise m.ip cause [] := by
  rw [step]
  simp only [hr, hip, hb, perform, hd]
  rfl

theorem next?_eq_some {word : Word} {d : Decoded} (hr : m.state = .running)
    (hip : m.program.code[m.ip]? = some word) (hb : m.isBudgetExhausted = false)
    (hd : decode m.program.code m.ip word = .ok d) : m.next? = some d := by
  rw [next?, hr, hip]
  simp only [hb, hd]
  rfl

theorem step_of_next? {d : Decoded} (h : m.next? = some d) :
    m.step = settle m.ip (m.announce d.op) ((m.fetch d).execute m.ip d.instruction) := by
  obtain ⟨hr, hb, word, hword, hd⟩ := decode_of_next? h
  rw [step, hr, hword]
  simp only [hb, perform, hd]
  rfl

theorem steps (m : Machine) : m.Steps m.step := by
  by_cases hr : m.state = .running
  · cases hip : m.program.code[m.ip]? with
    | none =>
      rw [step_of_end hr hip]
      exact .ended hr hip
    | some word =>
      cases hb : m.isBudgetExhausted with
      | true =>
        rw [step_of_exhausted hr hip hb]
        exact .exhausted hr hip hb
      | false =>
        cases hd : decode m.program.code m.ip word with
        | error cause =>
          rw [step_of_decode_error hr hip hb hd]
          exact .undecoded hr hip hb hd
        | ok d =>
          have hn := next?_eq_some hr hip hb hd
          rw [step_of_next? hn]
          exact .performed hn
  · rw [step_of_stopped hr]
    exact .stopped hr

/-! ## The faults of a step -/

theorem reports_raise (h : before.filterMap Notice.report? = []) :
    (m.raise start cause before).reports = [m.reportOf start cause] := by
  rw [Reply.reports, raise_notices, List.filterMap_append, h]
  rfl

theorem reports_announce (m : Machine) (op : Opcode) :
    (m.announce op).filterMap Notice.report? = [] := by
  rw [announce]
  split
  · split <;> rfl
  · rfl

/-- The fault of an instruction is all that its step reports. -/
theorem step_of_fault {d : Decoded} (hn : m.next? = some d)
    (h : (m.fetch d).execute m.ip d.instruction = .fault (m.fetch d) cause) :
    m.step = (m.fetch d).raise m.ip cause (m.announce d.op ++ []) ∧
      m.step.reports = [(m.fetch d).reportOf m.ip cause] := by
  have hstep : m.step = (m.fetch d).raise m.ip cause (m.announce d.op ++ []) := by
    rw [step_of_next? hn, h]
    rfl
  refine ⟨hstep, ?_⟩
  rw [hstep, reports_raise]
  rw [List.append_nil, reports_announce]

/-- An instruction lets nothing know that announces a fault. -/
theorem Executes.reports_notices {i : Instruction} {e : Execution} (h : m.Executes start i e) :
    e.notices.filterMap Notice.report? = [] := by
  cases h <;> rfl

theorem Executes.reports_settle {m' : Machine} {op : Opcode} {i : Instruction} {e : Execution}
    (h : m'.Executes start i e) (ht : ∀ cause, e.trap ≠ some (.fault cause)) :
    (settle start (m.announce op) e).reports = [] := by
  have hnotices : (m.announce op ++ e.notices).filterMap Notice.report? = [] := by
    rw [List.filterMap_append, reports_announce, h.reports_notices]
    rfl
  rw [settle]
  split
  · exact hnotices
  · next cause hc => exact absurd hc (ht cause)
  · exact hnotices

/-- A step whose instruction is not trapped reports nothing. -/
theorem step_of_untrapped {m₁ : Machine} {d : Decoded} {i : Instruction} {e : Execution}
    (hstep : m.step = settle start (m.announce d.op) e) (he : m₁.Executes start i e) (ht : e.trap = none) :
    m.step.machine = e.machine ∧ m.step.reports = [] := by
  constructor
  · rw [hstep, settle, ht]
  · rw [hstep]
    exact he.reports_settle fun cause hc => by rw [ht] at hc; cases hc

/-! ## The machine after a step -/

/-- A step ends by reporting; only the count of faults, the sink and the state may change then. -/
theorem settle_machine (start : Nat) (before : List Notice) (e : Execution) :
    ∃ count sink state,
      (settle start before e).machine =
        { e.machine with reporter := { e.machine.reporter with count }, sink, state } := by
  rw [settle]
  split
  · exact ⟨_, _, _, rfl⟩
  · rw [raise_machine]
    exact ⟨_, _, _, rfl⟩
  · exact ⟨_, _, _, rfl⟩

theorem Executes.executed_eq {i : Instruction} {e : Execution} (h : m.Executes start i e) :
    e.machine.executed = m.executed := by
  cases h <;> rfl

theorem executed_of_next? (fits : m.stack.Fits) {d : Decoded} (hn : m.next? = some d) :
    m.step.machine.executed = m.executed + 1 := by
  obtain ⟨count, sink, state, hm⟩ :=
    settle_machine m.ip (m.announce d.op) ((m.fetch d).execute m.ip d.instruction)
  rw [step_of_next? hn, hm]
  exact (executes (m := m.fetch d) fits m.ip d.instruction).executed_eq

/-- Where a step leads: to the same machine, or to what an instruction makes of it, each but for the counters,
the sink and the state. -/
inductive Lands (m : Machine) (r : Reply RunState) : Prop
  | stays (executed count : Nat) (sink : Sink) (state : RunState)
    (h : r.machine = { m with executed, reporter := { m.reporter with count }, sink, state }) : Lands m r
  | executes {d : Decoded} {e : Execution} (hn : m.next? = some d)
    (he : (m.fetch d).Executes m.ip d.instruction e)
    (hquiet : (∀ cause, e.trap ≠ some (.fault cause)) → r.reports = [])
    (count : Nat) (sink : Sink) (state : RunState)
    (h : r.machine = { e.machine with reporter := { e.machine.reporter with count }, sink, state }) :
    Lands m r

theorem lands (fits : m.stack.Fits) : m.Lands m.step := by
  have h := steps m
  generalize m.step = r at h
  cases h with
  | stopped | ended => exact .stays m.executed m.reporter.count m.sink _ rfl
  | exhausted | undecoded => exact .stays _ _ _ _ raise_machine
  | @performed d hn =>
    have he := executes (m := m.fetch d) fits m.ip d.instruction
    obtain ⟨count, sink, state, hsettle⟩ :=
      settle_machine m.ip (m.announce d.op) ((m.fetch d).execute m.ip d.instruction)
    exact .executes hn he he.reports_settle count sink state hsettle

end Machine

end StackMachine

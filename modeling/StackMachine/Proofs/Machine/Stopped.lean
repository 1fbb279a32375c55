import StackMachine.Proofs.Machine.Runs

/-!
Machines that have stopped.  Whatever a host asks of one afterwards fails and changes nothing, with one exception:
loading does not look at the state but at what the machine has done, so a machine that has stopped without having
done anything, for lack of any code, still takes arguments.
-/

set_option autoImplicit false

namespace StackMachine.Machine

open Execution

variable {m m' : Machine} {program : Program}

/-! ## What a host does -/

/-- Anything that a host may do with a machine: configure it, or ask it for something. -/
inductive HostCall where
  | configure (config : Config)
  | ask (request : Request)

/-- The machine after a call of its host. -/
def respond (m : Machine) : HostCall → Machine
  | .configure config => m.withConfig config
  | .ask request => m.answer request

/-- The machine that a host has after some calls. -/
def hosted (program : Program) (sink : Sink) (calls : List HostCall) : Machine :=
  calls.foldl respond (Machine.start program sink)

/-- Nothing that a host may ask of the machine has any effect: it fails, no one is told of anything, and the
machine and its sink stay as they are. -/
structure IsFinal (m : Machine) : Prop where
  load : ∀ args, ∃ e, m.load args = ⟨m, [], .error e⟩
  start : ∀ {σ : Type} (watch : σ → Notice → σ) (args : List Value) (seen : σ),
    ∃ e, m.startWith watch args seen = ⟨m, seen, some (.error e)⟩
  step : ∃ e, m.step = ⟨m, [], .error e⟩
  run : ∀ {σ : Type} (watch : σ → Notice → σ) (seen : σ), ∃ e, m.run watch seen = ⟨m, seen, some (.error e)⟩

/-! ## One instruction -/

/-- The program and the count of instructions are still those of `m`. -/
def KeepsWork (m : Machine) (e : Execution) : Prop :=
  e.machine.program = m.program ∧ e.machine.executed = m.executed

theorem keepsWork_orFault {α : Type} {r : Except Cause α} {next : α → Execution}
    (hm : m'.program = m.program ∧ m'.executed = m.executed) (h : ∀ a, m.KeepsWork (next a)) :
    m.KeepsWork (m'.orFault r next) := by
  cases r with
  | ok a => exact h a
  | error cause => exact hm

/-- This does not need the stack to be within its limit, which a host may lower at any time. -/
theorem keepsWork_execute (m : Machine) (start : Nat) (i : Instruction) :
    m.KeepsWork (m.execute start i) := by
  cases i with
  | halt => exact ⟨rfl, rfl⟩
  | leave withResult =>
    rw [execute, leave]
    split
    · exact ⟨rfl, rfl⟩
    · next result _ =>
      split
      · exact ⟨rfl, rfl⟩
      · next exit _ =>
        obtain ⟨base, _ | ⟨fp, ip⟩⟩ := exit <;> cases result with
        | none => exact ⟨rfl, rfl⟩
        | some v =>
          simp only [unwind, onStack_eq]
          exact keepsWork_orFault ⟨rfl, rfl⟩ fun _ => ⟨rfl, rfl⟩
  | call target argc =>
    rw [execute, call]
    split <;> exact ⟨rfl, rfl⟩
  | lineFeed | print =>
    rw [execute_written rfl]
    refine keepsWork_orFault ⟨rfl, rfl⟩ fun text => ?_
    rw [output]
    split <;> exact ⟨rfl, rfl⟩
  | jump | branch | choose =>
    rw [execute_destination rfl]
    exact keepsWork_orFault ⟨rfl, rfl⟩ fun _ => ⟨rfl, rfl⟩
  | _ =>
    rw [execute_computed rfl]
    exact keepsWork_orFault ⟨rfl, rfl⟩ fun _ => ⟨rfl, rfl⟩

/-- An instruction that was performed is counted, and leaves the program. -/
theorem work_of_performed (m : Machine) (d : Decoded) (before : List Notice) :
    (settle m.ip before ((m.fetch d).execute m.ip d.instruction)).machine.program = m.program
      ∧ (settle m.ip before ((m.fetch d).execute m.ip d.instruction)).machine.executed = m.executed + 1 := by
  obtain ⟨count, sink, state, hm⟩ := settle_machine m.ip before ((m.fetch d).execute m.ip d.instruction)
  rw [hm]
  exact keepsWork_execute (m.fetch d) m.ip d.instruction

/-! ## What has been executed -/

/-- A machine of `program` that has not executed anything stands at the first instruction, and can only have
stopped if there is none; where there is none, nothing is ever executed. -/
structure CountsWork (program : Program) (m : Machine) : Prop where
  program_eq : m.program = program
  ip_eq : m.executed = 0 → m.ip = 0
  stopped : m.executed = 0 → m.state ≠ .running → program.code.size = 0
  nothing : program.code.size = 0 → m.executed = 0

/-- A machine that has just executed something, which it could only with some code. -/
theorem CountsWork.of_executed {address : Nat} {word : Word} (hprogram : m.program = program)
    (hexecuted : m.executed ≠ 0) (hip : program.code[address]? = some word) : m.CountsWork program := by
  refine ⟨hprogram, fun h => absurd h hexecuted, fun h => absurd h hexecuted, fun hzero => ?_⟩
  obtain ⟨hlt, -⟩ := Array.getElem?_eq_some_iff.1 hip
  omega

theorem CountsWork.step (h : m.CountsWork program) : m.step.machine.CountsWork program := by
  have hprogram := h.program_eq
  have hsteps := steps m
  generalize m.step = r at hsteps
  cases hsteps with
  | stopped => exact h
  | ended hr hip =>
    refine ⟨hprogram, h.ip_eq, fun hexecuted _ => ?_, h.nothing⟩
    rw [hprogram, h.ip_eq hexecuted] at hip
    exact Nat.le_zero.1 (Array.getElem?_eq_none_iff.1 hip)
  | exhausted hr hip hb =>
    rw [raise_machine]
    have hpos : m.executed ≠ 0 := by
      simp [isBudgetExhausted] at hb
      omega
    exact .of_executed hprogram hpos (hprogram ▸ hip)
  | undecoded hr hip =>
    rw [raise_machine]
    exact .of_executed hprogram (Nat.succ_ne_zero _) (hprogram ▸ hip)
  | @performed d hn =>
    obtain ⟨word, hip, -⟩ := (decodes_of_next? hn).code
    obtain ⟨hkept, hexecuted⟩ := work_of_performed m d (m.announce d.op)
    refine .of_executed (hkept.trans hprogram) ?_ (hprogram ▸ hip)
    exact hexecuted ▸ Nat.succ_ne_zero _

theorem CountsWork.load (h : m.CountsWork program) (args : List Value) :
    (m.load args).machine.CountsWork program := by
  rcases load_cases m args with ⟨e, he⟩ | ⟨-, -, -, stack, -, he⟩ <;> rw [he]
  · exact h
  · exact ⟨h.program_eq, h.ip_eq, h.stopped, h.nothing⟩

theorem stable_countsWork (program : Program) : Stable (CountsWork program) where
  load args h := h.load args
  step h := h.step
  finish {m} h := by
    obtain ⟨sink, hm⟩ := finish_machine m
    rw [hm]
    exact ⟨h.program_eq, h.ip_eq, h.stopped, h.nothing⟩

/-- What a host keeps of a machine if it keeps it by configuring. -/
theorem Stable.hosted {P : Machine → Prop} (h : Stable P)
    (hconfigure : ∀ {m} (config : Config), P m → P (m.withConfig config)) (calls : List HostCall) (hm : P m) :
    P (calls.foldl respond m) := by
  induction calls generalizing m with
  | nil => exact hm
  | cons call calls ih =>
    refine ih ?_
    cases call with
    | configure config => exact hconfigure config hm
    | ask request => exact h.answer request hm

theorem hosted_countsWork (program : Program) (sink : Sink) (calls : List HostCall) :
    (hosted program sink calls).CountsWork program :=
  (stable_countsWork program).hosted (fun _ h => ⟨h.program_eq, h.ip_eq, h.stopped, h.nothing⟩) calls
    ⟨rfl, fun _ => rfl, fun _ hr => absurd rfl hr, fun _ => rfl⟩

/-! ## After the stop -/

theorem run_of_stopped {σ : Type} (watch : σ → Notice → σ) (seen : σ) (hr : m.state ≠ .running) :
    m.run watch seen = ⟨m, seen, some (.error (.notRunning m.state))⟩ := by
  obtain ⟨n, hn⟩ : ∃ n, m.stepBound = n + 1 := by
    rw [stepBound]
    split
    · exact ⟨_, rfl⟩
    · exact ⟨0x3FFFFFFFFFFFFFFF, rfl⟩
  have hstep := step_of_stopped hr
  have hresult : m.step.result = .error (.notRunning m.state) := by rw [hstep]
  rw [run, hn, runFor_of_error watch seen n hresult, hstep]
  rfl

/-- A refused load leaves nothing to be run. -/
theorem startWith_of_error {σ : Type} (watch : σ → Notice → σ) (args : List Value) (seen : σ) {e : MachineError}
    (h : m.load args = ⟨m, [], .error e⟩) : m.startWith watch args seen = ⟨m, seen, some (.error e)⟩ := by
  rw [startWith, h]
  rfl

theorem isFinal_of_load (hr : m.state ≠ .running) (h : ∀ args, ∃ e, m.load args = ⟨m, [], .error e⟩) :
    m.IsFinal where
  load := h
  start watch args seen := by
    obtain ⟨e, he⟩ := h args
    exact ⟨e, startWith_of_error watch args seen he⟩
  step := ⟨_, step_of_stopped hr⟩
  run watch seen := ⟨_, run_of_stopped watch seen hr⟩

theorem load_of_started (h : m.executed ≠ 0 ∨ 0 < m.stack.depth) (args : List Value) :
    m.load args = ⟨m, [], .error .alreadyStarted⟩ := by
  rw [load, if_pos]
  simp only [OperandStack.isEmpty, Bool.or_eq_true, decide_eq_true_eq, Bool.not_eq_true',
    decide_eq_false_iff_not]
  omega

/-- A new machine takes arguments just if its stack has room for a frame without any. -/
theorem load_of_new (hexecuted : m.executed = 0) (hempty : m.stack.depth = 0) (args : List Value) :
    (m.load args).result = .ok () ↔ m.stack.reserve (args.length + 2) = .ok () := by
  rw [load, if_neg (by simp [OperandStack.isEmpty, hexecuted, hempty])]
  cases m.stack.reserve (args.length + 2) <;> simp

/-- Only a limit of one leaves a stack without room for the smallest frame. -/
theorem reserve_frame_eq_ok {s : OperandStack} (hempty : s.depth = 0) :
    s.reserve 2 = .ok () ↔ s.limit ≠ 1 := by
  rw [OperandStack.reserve_eq_ok, hempty, OperandStack.largestDepth, Word.cardinality]
  omega

theorem load_of_limit_one (hempty : m.stack.depth = 0) (hlimit : m.stack.limit = 1) (args : List Value) :
    ∃ e, m.load args = ⟨m, [], .error e⟩ := by
  rcases load_cases m args with he | ⟨hroom, -⟩
  · exact he
  · rw [OperandStack.reserve_eq_ok, hempty, hlimit, OperandStack.largestDepth, Word.cardinality] at hroom
    omega

/-- Nothing has any effect on a machine that has stopped, but for one that had no code and was never loaded: that
one still takes arguments, unless its stack is limited to one value. -/
theorem stopped_is_final_iff (program : Program) (sink : Sink) (calls : List HostCall)
    (hr : (hosted program sink calls).state ≠ .running) :
    (hosted program sink calls).IsFinal ↔ 0 < program.code.size ∨ 0 < (hosted program sink calls).stack.depth
      ∨ (hosted program sink calls).stack.limit = 1 := by
  have h := hosted_countsWork program sink calls
  generalize hosted program sink calls = m at h hr
  constructor
  · intro hfinal
    rcases Nat.eq_zero_or_pos program.code.size with hcode | hcode
    · rcases Nat.eq_zero_or_pos m.stack.depth with hempty | hdepth
      · refine .inr (.inr (Classical.byContradiction fun hlimit => ?_))
        have hroom := (reserve_frame_eq_ok hempty).2 hlimit
        obtain ⟨e, he⟩ := hfinal.load []
        have hok : (m.load []).result = .ok () := (load_of_new (h.nothing hcode) hempty []).2 hroom
        rw [he] at hok
        cases hok
      · exact .inr (.inl hdepth)
    · exact .inl hcode
  · intro hdone
    refine isFinal_of_load hr fun args => ?_
    by_cases hstarted : m.executed ≠ 0 ∨ 0 < m.stack.depth
    · exact ⟨_, load_of_started hstarted args⟩
    · have hexecuted : m.executed = 0 := by omega
      have hempty : m.stack.depth = 0 := by omega
      have hcode := h.stopped hexecuted hr
      exact load_of_limit_one hempty (by omega) args

/-- A machine that has executed its only instruction. -/
theorem stopped_is_final_iff_halt :
    ∃ m, m = hosted ⟨#[Opcode.halt.word], .empty, .empty, .empty⟩ .unlimited [.ask .step]
      ∧ m.state = .halted ∧ m.IsFinal := by
  have hr : (hosted ⟨#[Opcode.halt.word], .empty, .empty, .empty⟩ .unlimited [.ask .step]).state = .halted := by
    decide +kernel
  refine ⟨_, rfl, hr, (stopped_is_final_iff _ _ _ ?_).2 (.inl (by decide))⟩
  rw [hr]
  nofun

/-- A machine without any code, which halts at once, takes arguments afterwards and puts them on its stack. -/
theorem halted_machine_takes_arguments :
    ∃ m, m = hosted .empty .unlimited [.ask .run] ∧ m.state = .halted
      ∧ (m.load [.int 7]).result = .ok () ∧ m.stack.depth = 0 ∧ (m.load [.int 7]).machine.stack.depth = 3 :=
  ⟨_, rfl, rfl, rfl, rfl, rfl⟩

end StackMachine.Machine

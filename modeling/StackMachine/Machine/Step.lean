import StackMachine.Machine.Execute

/-!
One step of a machine: taking the next instruction, executing it, and reporting its fault if it has one.
-/

set_option autoImplicit false

namespace StackMachine.Machine

/-- Whether the instruction budget is used up. -/
def isBudgetExhausted (m : Machine) : Bool :=
  0 < m.config.maxInstructions && m.config.maxInstructions ≤ m.executed

/-- Writes a report and asks for its delivery. -/
def deliver (sink : Sink) (report : Report) : Sink × Option Sink.Failure :=
  match sink.write report.display with
  | (sink, none) => sink.flush
  | (sink, some failure) => (sink, some failure)

/-- Reports a fault of the instruction at `start` and applies the policy for its kind; `before` is what the
instruction let know until then. -/
def raise (m : Machine) (start : Nat) (cause : Cause) (before : List Notice) : Reply RunState :=
  let (report, reporter) := m.reporter.report cause.fault start m.program.code m.stack
  let notices := before ++ [.faulted report.kind start, .reported report]
  match deliver m.sink report with
  | (sink, some failure) =>
    ⟨{ m with reporter, sink, state := .faulted }, notices, .error (.output failure)⟩
  | (sink, none) =>
    if report.isFatal then
      ⟨{ m with reporter, sink, state := .faulted }, notices, .error (.fatal report)⟩
    else ⟨{ m with reporter, sink }, notices, .ok m.state⟩

/-- What is let known before an instruction is executed: a line of the listing if instructions are traced,
and the step itself. -/
def announce (m : Machine) (op : Opcode) : List Notice :=
  if m.config.trace then
    match Listing.lineAt? m.program.code m.ip with
    | some line => [.traced line m.fp m.stack.depth, .stepped m.ip op]
    | none => [.stepped m.ip op]
  else [.stepped m.ip op]

/-- Ends the step of the instruction at `start` with what came of it. -/
def settle (start : Nat) (before : List Notice) (e : Execution) : Reply RunState :=
  match e.trap with
  | none => ⟨e.machine, before ++ e.notices, .ok e.machine.state⟩
  | some (.fault cause) => e.machine.raise start cause (before ++ e.notices)
  | some (.output failure) =>
    ⟨{ e.machine with state := .faulted }, before ++ e.notices, .error (.output failure)⟩

/-- Takes the instruction with the word `word` at the machine's address and executes it. -/
def perform (m : Machine) (word : Word) : Reply RunState :=
  match decode m.program.code m.ip word with
  | .error cause => { m with executed := m.executed + 1 }.raise m.ip cause []
  | .ok d =>
    let start := m.ip
    let before := m.announce d.op
    settle start before
      ({ m with executed := m.executed + 1, ip := d.next }.execute start d.instruction)

/-- Executes one instruction.  Past the end of the code the machine halts; once it has stopped it does
nothing any more. -/
def step (m : Machine) : Reply RunState :=
  match m.state with
  | .running =>
    match m.program.code[m.ip]? with
    | none => ⟨{ m with state := .halted }, [.ranPastEnd m.ip], .ok .halted⟩
    | some word =>
      if m.isBudgetExhausted then m.raise m.ip (.budgetExhausted m.config.maxInstructions) []
      else m.perform word
  | state => ⟨m, [], .error (.notRunning state)⟩

end StackMachine.Machine

import StackMachine.Proofs.Frames.Exit

/-!
All that an instruction can do.  Most instructions only compute a new stack; two print, three go to an
address that they find out first, and the rest halt, enter a frame or leave one.  `executes` lists the
outcomes, so that what every instruction preserves is proved by a few cases.
-/

set_option autoImplicit false

namespace StackMachine

/-- How many values, from the top down, an instruction pops, copies or reorders. -/
def Instruction.reach : Instruction → Nat
  | .print .. | .drop | .popLocal _ | .leave true => 1
  | .duplicate n | .rotate n _ => n
  | .operate op => op.arity
  | .branch c _ | .choose c .. => c.arity
  | .call _ argc => (Word.index? argc).getD 0
  | _ => 0

/-- The operands of an instruction that are addresses to go on at. -/
def Instruction.targets : Instruction → List Word
  | .jump target | .branch _ target | .call target _ => [target]
  | .choose _ target otherwise => [target, otherwise]
  | _ => []

/-- The instruction neither calls nor leaves a frame. -/
def Instruction.keepsFrame : Instruction → Bool
  | .call .. | .leave _ => false
  | _ => true

namespace Machine

open Execution

/-! ## What an instruction finds out before it changes anything -/

/-- The stack that an instruction makes which does nothing else. -/
def computed? (m : Machine) : Instruction → Option (Except Cause OperandStack)
  | .skip => some (.ok m.stack)
  | .push v => some (m.stack.push v)
  | .constant pool index => some do m.stack.push (← m.constant pool index)
  | .drop => some (m.stack.discard 1)
  | .duplicate n => some (m.stack.duplicate n)
  | .rotate n k => some (m.stack.rotate n k)
  | .operate op => some do return (m.stack.drop op.arity).put (← op.result m.stack)
  | .alloc n => some <| match Word.index? n with
    | some slots => m.stack.alloc slots
    | none => .error (.negative "local slot count" n)
  | .pushArg n => some do m.stack.push (← m.stack.getArg m.fp n)
  | .pushLocal n => some do m.stack.push (← m.stack.getLocal m.fp n)
  | .popLocal n => some (m.stack.setLocal m.fp n)
  | _ => none

/-- The text that an instruction writes. -/
def written? (m : Machine) : Instruction → Option (Except Cause String)
  | .lineFeed => some (.ok "\n")
  | .print form newline => some do
    let text ← form.text (← m.stack.peek 0)
    return if newline then text ++ "\n" else text
  | _ => none

/-- The address that an instruction goes on at which does not enter or leave a frame. -/
def destination? (m : Machine) : Instruction → Option (Except Cause Nat)
  | .jump target => some (m.jumpTarget target)
  | .branch c target => some do
    let ip ← m.jumpTarget target
    return if ← c.evaluate m.stack then ip else m.ip
  | .choose c target otherwise => some do
    let ip ← m.jumpTarget target
    let other ← m.jumpTarget otherwise
    return if ← c.evaluate m.stack then ip else other
  | _ => none

/-- Goes on with what was found out, or fails for the cause given. -/
def orFault {α : Type} (m : Machine) (r : Except Cause α) (next : α → Execution) : Execution :=
  match r with
  | .ok a => next a
  | .error cause => fault m cause

variable {m : Machine} {start : Nat} {i : Instruction}

theorem onStack_eq (r : Except Cause OperandStack) :
    m.onStack r = m.orFault r fun stack => done { m with stack } := by
  cases r <;> rfl

theorem execute_computed {r : Except Cause OperandStack} (h : m.computed? i = some r) :
    m.execute start i = m.orFault r fun stack => done { m with stack } := by
  cases i with
  | skip => cases h; rfl
  | push | drop | duplicate | rotate | popLocal | pushArg | pushLocal =>
    cases h
    exact onStack_eq _
  | constant pool index =>
    cases h
    rw [execute]
    cases m.constant pool index with
    | ok v => exact onStack_eq _
    | error cause => rfl
  | operate op =>
    cases h
    rw [execute, operate]
    cases op.result m.stack <;> rfl
  | alloc n =>
    cases h
    rw [execute, alloc]
    cases Word.index? n with
    | some slots => exact onStack_eq _
    | none => rfl
  | _ => cases h

theorem execute_written {r : Except Cause String} (h : m.written? i = some r) :
    m.execute start i = m.orFault r fun text => m.output text (m.stack.drop i.reach) := by
  cases i with
  | lineFeed => cases h; rfl
  | print form newline =>
    cases h
    rw [execute, print]
    cases m.stack.peek 0 with
    | error cause => rfl
    | ok v =>
      rw [ok_bind]
      dsimp only
      cases form.text v <;> rfl
  | _ => cases h

theorem execute_destination {r : Except Cause Nat} (h : m.destination? i = some r) :
    m.execute start i = m.orFault r fun ip => done { m with stack := m.stack.drop i.reach, ip } := by
  cases i with
  | jump target =>
    cases h
    rw [execute, jump]
    cases m.jumpTarget target <;> rfl
  | branch c target =>
    cases h
    rw [execute, branch]
    cases m.jumpTarget target with
    | error cause => rfl
    | ok ip =>
      dsimp only [ok_bind]
      rw [branchTo]
      cases c.evaluate m.stack <;> rfl
  | choose c target otherwise =>
    cases h
    rw [execute, choose]
    cases m.jumpTarget target with
    | error cause => rfl
    | ok ip =>
      dsimp only [ok_bind]
      cases m.jumpTarget otherwise with
      | error cause => rfl
      | ok other =>
        dsimp only [ok_bind]
        rw [branchTo]
        cases c.evaluate m.stack <;> rfl
  | _ => cases h

/-! ## All outcomes -/

/-- Why an instruction is refused. -/
inductive Refuses (m : Machine) (i : Instruction) (cause : Cause) : Prop
  | computing (h : m.computed? i = some (.error cause))
  | writing (h : m.written? i = some (.error cause))
  | going (h : m.destination? i = some (.error cause))
  | calling {target argc : Word} (hi : i = .call target argc)
    (h : m.checkCall target argc = .error cause)
  | returning {withResult : Bool} (hi : i = .leave withResult)
    (h : m.frameResult withResult = .error cause)
  | leaving {withResult : Bool} (hi : i = .leave withResult) (h : m.frameExit = .error cause)

/-- The machine in a new frame with the address `ip`, which has taken `count` arguments. -/
def enter (m : Machine) (ip count : Nat) : Machine :=
  { m with
    stack := (m.stack.put (.int (Int64.ofNat count))).put (.int (Int64.ofNat m.fp))
    returns := m.returns.push m.ip
    fp := m.stack.depth + 2
    ip }

/-- The stack cut to its lowest `base` values, with the result of a frame on top if it has one. -/
def cut (m : Machine) (base : Nat) (result : Option Value) : OperandStack :=
  match result with
  | some v => (m.stack.truncate base).put v
  | none => m.stack.truncate base

/-- The outcomes of an instruction that starts at `start`. -/
inductive Executes (m : Machine) (start : Nat) (i : Instruction) : Execution → Prop
  | refused {cause : Cause} (h : m.Refuses i cause) : Executes m start i (fault m cause)
  | unwritten {text : String} {sink : Sink} {failure : Sink.Failure}
    (h : m.written? i = some (.ok text)) (hw : m.sink.write text = (sink, some failure)) :
    Executes m start i ⟨{ m with sink }, [], some (.output failure)⟩
  | written {text : String} {sink : Sink}
    (h : m.written? i = some (.ok text)) (hw : m.sink.write text = (sink, none)) :
    Executes m start i (done { m with sink, stack := m.stack.drop i.reach })
  | computed {stack : OperandStack} (h : m.computed? i = some (.ok stack)) :
    Executes m start i (done { m with stack })
  | went {ip : Nat} (h : m.destination? i = some (.ok ip)) :
    Executes m start i (done { m with stack := m.stack.drop i.reach, ip })
  | halted (hi : i = .halt) :
    Executes m start i ⟨{ m with state := .halted }, [.halted start m.stack.depth], none⟩
  | called {target argc : Word} {ip count : Nat} (hi : i = .call target argc)
    (h : m.checkCall target argc = .ok (ip, count)) :
    Executes m start i ⟨m.enter ip count, [.called ip count (m.stack.depth + 2)], none⟩
  | resumed {withResult : Bool} {result : Option Value} {base fp ip : Nat}
    (hi : i = .leave withResult) (hr : m.frameResult withResult = .ok result)
    (he : m.frameExit = .ok ⟨base, some (fp, ip)⟩) :
    Executes m start i
      ⟨{ m with stack := m.cut base result, returns := m.returns.tail, fp, ip },
        [.returned ip fp, .left result], none⟩
  | finished {withResult : Bool} {result : Option Value} {base : Nat}
    (hi : i = .leave withResult) (hr : m.frameResult withResult = .ok result)
    (he : m.frameExit = .ok ⟨base, none⟩) :
    Executes m start i
      ⟨{ m with stack := m.cut base result, state := .halted },
        [.halted start (m.stack.truncate base).depth, .left result], none⟩

theorem executes_orFault {α : Type} {r : Except Cause α} {next : α → Execution}
    (hok : ∀ a, r = .ok a → m.Executes start i (next a))
    (herror : ∀ cause, r = .error cause → m.Refuses i cause) :
    m.Executes start i (m.orFault r next) := by
  cases r with
  | ok a => exact hok a rfl
  | error cause => exact .refused (herror cause rfl)

/-- A frame with a result holds more values than stay below it, so there is room for the result. -/
theorem push_result (fits : m.stack.Fits) {v : Value} {exit : FrameExit}
    (hr : m.frameResult true = .ok (some v)) (he : m.frameExit = .ok exit) :
    (m.stack.truncate exit.base).push v = .ok (m.cut exit.base (some v)) := by
  have hbase := frameExit_base_le he
  obtain ⟨hlt, -⟩ := frameResult_true_eq_ok.1 hr
  refine OperandStack.push_eq_ok.2 ⟨fits.reserve_eq_ok rfl ?_, rfl⟩
  rw [OperandStack.depth_truncate]
  omega

/-- A frame that can be left is left, with its result if it has one. -/
theorem execute_leave (fits : m.stack.Fits) (start : Nat) {withResult : Bool} {result : Option Value}
    {exit : FrameExit} (hr : m.frameResult withResult = .ok result) (he : m.frameExit = .ok exit) :
    m.execute start (.leave withResult) =
      match exit.resume with
      | some (fp, ip) =>
        ⟨{ m with stack := m.cut exit.base result, returns := m.returns.tail, fp, ip },
          [.returned ip fp, .left result], none⟩
      | none =>
        ⟨{ m with stack := m.cut exit.base result, state := .halted },
          [.halted start (m.stack.truncate exit.base).depth, .left result], none⟩ := by
  have hpush : ∀ v, result = some v →
      (m.stack.truncate exit.base).push v = .ok (m.cut exit.base (some v)) := by
    intro v hv
    subst hv
    cases withResult with
    | true => exact push_result fits hr he
    | false => cases hr
  rw [execute, leave, hr, he]
  obtain ⟨base, resume⟩ := exit
  cases result with
  | none => rcases resume with _ | ⟨fp, ip⟩ <;> rfl
  | some v =>
    rcases resume with _ | ⟨fp, ip⟩
    · simp only [unwind, onStack_eq, hpush v rfl, orFault]
      rfl
    · simp only [unwind, onStack_eq, hpush v rfl, orFault]
      rfl

theorem executes_leave (fits : m.stack.Fits) (withResult : Bool) :
    m.Executes start (.leave withResult) (m.execute start (.leave withResult)) := by
  cases hr : m.frameResult withResult with
  | error cause =>
    rw [execute, leave, hr]
    exact .refused (.returning rfl hr)
  | ok result =>
    cases he : m.frameExit with
    | error cause =>
      rw [execute, leave, hr, he]
      exact .refused (.leaving rfl he)
    | ok exit =>
      rw [execute_leave fits start hr he]
      obtain ⟨base, _ | ⟨fp, ip⟩⟩ := exit
      · exact .finished rfl hr he
      · exact .resumed rfl hr he

/-- An instruction that leaves no frame has one of the outcomes, whether or not the stack is within its limit. -/
theorem executes_unless_leave (start : Nat) (h : ∀ withResult, i ≠ .leave withResult) :
    m.Executes start i (m.execute start i) := by
  cases i with
  | halt => exact .halted rfl
  | leave withResult => exact absurd rfl (h withResult)
  | call target argc =>
    rw [execute, call]
    cases h : m.checkCall target argc with
    | error cause => exact .refused (.calling rfl h)
    | ok r => exact .called rfl h
  | lineFeed | print =>
    rw [execute_written rfl]
    refine executes_orFault (fun text h => ?_) fun cause h => .writing (congrArg some h)
    rw [output]
    cases hw : m.sink.write text with
    | mk sink failure? =>
      cases failure? with
      | none => exact .written (congrArg some h) hw
      | some failure => exact .unwritten (congrArg some h) hw
  | jump | branch | choose =>
    rw [execute_destination rfl]
    exact executes_orFault (fun ip h => .went (congrArg some h))
      fun cause h => .going (congrArg some h)
  | _ =>
    rw [execute_computed rfl]
    exact executes_orFault (fun stack h => .computed (congrArg some h))
      fun cause h => .computing (congrArg some h)

/-- Every instruction has one of the outcomes. -/
theorem executes (fits : m.stack.Fits) (start : Nat) (i : Instruction) :
    m.Executes start i (m.execute start i) := by
  cases i with
  | leave withResult => exact executes_leave fits withResult
  | _ => exact executes_unless_leave start nofun

end Machine

end StackMachine

import StackMachine.Proofs.Frames.Interior
import StackMachine.Proofs.Machine.Output

/-!
Instructions that take their values from the current frame.  What they find out and compute depends on the
values of this frame alone, so it is what a machine would that has no others.
-/

set_option autoImplicit false

namespace StackMachine.Machine

variable {m : Machine} {s t : OperandStack} {below args deep : List Value} {caller : Nat} {i : Instruction}

/-- A machine that has nothing but the values of one frame. -/
def alone (program : Program) (ip : Nat) (s : OperandStack) : Machine :=
  { Machine.start program .unlimited with ip, stack := s }

/-- The current frame has the values of `s`, and `below` lies below it. -/
structure HasFrame (m : Machine) (s : OperandStack) (below : List Value) : Prop where
  stack_eq : m.stack = s.onto below
  fp_eq : m.fp = below.length
  limit_eq : s.limit = 0

theorem HasFrame.depth_eq (h : m.HasFrame s below) : m.stack.depth = s.depth + m.fp := by
  rw [h.stack_eq, h.fp_eq, OperandStack.depth_onto]

theorem HasFrame.fits (h : m.HasFrame s below) : m.stack.Fits := by
  intro hpos
  rw [h.stack_eq] at hpos
  exact absurd hpos (h.limit_eq ▸ Nat.lt_irrefl 0)

theorem bind_push_onto {r : Except Cause Value} (h : s.limit = 0) (below : List Value) :
    (r >>= (s.onto below).push) = (r >>= s.push).map (·.onto below) := by
  cases r with
  | error cause => rfl
  | ok v => exact OperandStack.push_onto h below v

/-- The stack that an instruction makes lies on what was below its frame. -/
theorem computed?_onto (h : m.HasFrame s below) (hreach : i.reach ≤ s.depth) (hi : ∀ n, i ≠ .pushArg n) :
    m.computed? i = ((alone m.program m.ip s).computed? i).map (·.map (·.onto below)) := by
  cases i with
  | skip => exact congrArg (some ∘ Except.ok) h.stack_eq
  | push v =>
    rw [computed?, h.stack_eq]
    exact congrArg some (OperandStack.push_onto h.limit_eq below v)
  | constant pool index =>
    rw [computed?, h.stack_eq]
    exact congrArg some (bind_push_onto h.limit_eq below)
  | drop =>
    rw [computed?, h.stack_eq]
    exact congrArg some (OperandStack.discard_onto hreach)
  | duplicate n =>
    rw [computed?, h.stack_eq]
    exact congrArg some (OperandStack.duplicate_onto h.limit_eq hreach)
  | rotate n k =>
    rw [computed?, h.stack_eq]
    exact congrArg some (OperandStack.rotate_onto hreach k)
  | operate op =>
    have hresult : op.result (s.onto below) = op.result s := OperandStack.result_onto hreach
    have hdrop : (s.onto below).drop op.arity = (s.drop op.arity).onto below := OperandStack.drop_onto hreach
    have halone : (alone m.program m.ip s).stack = s := rfl
    rw [computed?, computed?, h.stack_eq, hresult, hdrop, halone]
    cases op.result s with
    | error cause => rfl
    | ok v => exact congrArg (some ∘ Except.ok) (OperandStack.put_onto _ below v)
  | alloc n =>
    rw [computed?, computed?, h.stack_eq]
    cases Word.index? n with
    | none => rfl
    | some slots => exact congrArg some (OperandStack.alloc_onto h.limit_eq slots)
  | pushArg n => exact absurd rfl (hi n)
  | pushLocal n =>
    rw [computed?, h.stack_eq, h.fp_eq, s.getLocal_onto below]
    exact congrArg some (bind_push_onto h.limit_eq below)
  | popLocal n =>
    rw [computed?, h.stack_eq, h.fp_eq]
    exact congrArg some (OperandStack.setLocal_onto hreach n)
  | _ => rfl

theorem written?_onto (h : m.HasFrame s below) (hreach : i.reach ≤ s.depth) :
    m.written? i = (alone m.program m.ip s).written? i := by
  cases i with
  | print form newline =>
    rw [written?, h.stack_eq, OperandStack.peek_onto hreach]
    rfl
  | _ => rfl

theorem destination?_onto (h : m.HasFrame s below) (hreach : i.reach ≤ s.depth) :
    m.destination? i = (alone m.program m.ip s).destination? i := by
  cases i with
  | branch | choose =>
    rw [destination?, h.stack_eq, OperandStack.evaluate_onto hreach]
    rfl
  | _ => rfl

theorem jumpTarget_of_program_eq {m' : Machine} (h : m'.program = m.program) (target : Word) :
    m'.jumpTarget target = m.jumpTarget target := by
  rw [jumpTarget, jumpTarget, h]

/-- The addresses that the instruction may go on at lie in the code. -/
def TargetsInCode (m : Machine) (i : Instruction) : Prop :=
  ∀ target ∈ i.targets, ∃ ip, m.jumpTarget target = .ok ip

theorem targetsInCode_of_nil (h : i.targets = []) : m.TargetsInCode i := by
  intro target hmem
  rw [h] at hmem
  cases hmem

/-- An instruction that may go on outside the code is refused before it takes any values. -/
theorem destination?_of_not_targetsInCode (h : ¬ m.TargetsInCode i) (hi : i.keepsFrame = true) :
    ∃ cause, ∀ m' : Machine, m'.program = m.program → m'.destination? i = some (.error cause) := by
  cases i with
  | call | leave => cases hi
  | jump target =>
    cases ht : m.jumpTarget target with
    | error cause => exact ⟨cause, fun m' hp => by rw [destination?, jumpTarget_of_program_eq hp, ht]⟩
    | ok ip => exact absurd (fun _ hmem => List.mem_singleton.1 hmem ▸ ⟨ip, ht⟩) h
  | branch c target =>
    cases ht : m.jumpTarget target with
    | error cause => exact ⟨cause, fun m' hp => by rw [destination?, jumpTarget_of_program_eq hp, ht]; rfl⟩
    | ok ip => exact absurd (fun _ hmem => List.mem_singleton.1 hmem ▸ ⟨ip, ht⟩) h
  | choose c target otherwise =>
    cases ht : m.jumpTarget target with
    | error cause => exact ⟨cause, fun m' hp => by rw [destination?, jumpTarget_of_program_eq hp, ht]; rfl⟩
    | ok ip =>
      cases ho : m.jumpTarget otherwise with
      | error cause =>
        refine ⟨cause, fun m' hp => ?_⟩
        rw [destination?, jumpTarget_of_program_eq hp target, jumpTarget_of_program_eq hp otherwise, ht, ho]
        rfl
      | ok other =>
        refine absurd (fun w hmem => ?_) h
        cases hmem with
        | head => exact ⟨ip, ht⟩
        | tail _ hmem => exact List.mem_singleton.1 hmem ▸ ⟨other, ho⟩
  | _ => exact absurd (targetsInCode_of_nil rfl) h

/-- The result of a frame is one of its own values. -/
theorem frameResult_onto (h : m.HasFrame s below) (withResult : Bool) :
    m.frameResult withResult = (alone m.program m.ip s).frameResult withResult := by
  cases withResult with
  | false => rfl
  | true =>
    have hdepth := h.depth_eq
    rw [frameResult, frameResult, if_pos rfl, if_pos rfl]
    rcases Nat.eq_zero_or_pos s.depth with hzero | hpos
    · have halone : (alone m.program m.ip s).stack.depth ≤ 0 := Nat.le_of_eq hzero
      rw [if_pos (show m.stack.depth ≤ m.fp by omega)]
      exact (if_pos halone).symm
    · have halone : ¬ (alone m.program m.ip s).stack.depth ≤ 0 := Nat.not_le.2 hpos
      rw [if_neg (show ¬ m.stack.depth ≤ m.fp by omega), h.stack_eq, OperandStack.peek_onto hpos]
      exact (if_neg halone).symm

/-- A call needs nothing but its target in the code and its arguments in the frame. -/
theorem checkCall_onto (h : m.HasFrame s below) (hcalls : m.config.maxCallDepth = 0) (target argc : Word) :
    m.checkCall target argc = (alone m.program m.ip s).checkCall target argc := by
  have hdepth := h.depth_eq
  have hcount : m.argumentCount argc = (alone m.program m.ip s).argumentCount argc := by
    have havailable : m.stack.depth - m.fp = s.depth - 0 := by omega
    rw [argumentCount, argumentCount, havailable]
    rfl
  have hfree : m.checkCallDepth = .ok () := checkCallDepth_eq_ok.2 (by omega)
  have hroom : m.stack.reserve 2 = .ok () := by
    rw [h.stack_eq]
    exact OperandStack.reserve_of_limit (s := s.onto below) h.limit_eq 2
  have hroom' : (alone m.program m.ip s).stack.reserve 2 = .ok () := OperandStack.reserve_of_limit h.limit_eq 2
  have hfree' : (alone m.program m.ip s).checkCallDepth = .ok () := rfl
  rw [checkCall, checkCall, hcount, hfree, hroom, hfree', hroom']
  rfl

end StackMachine.Machine

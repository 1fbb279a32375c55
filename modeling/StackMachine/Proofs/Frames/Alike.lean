import StackMachine.Proofs.Frames.Locality

/-!
Two machines with the same frames on different stacks.  An instruction that takes its values from the current
frame does the same to both: it is refused for the same cause, or it leaves them with the same frames again.
-/

set_option autoImplicit false

namespace StackMachine

/-- What lies below a callee: the values from the top down, with the words of the call, and the return addresses,
the latest first. -/
structure Base where
  low : List Value
  rest : List Nat

/-- The callee was called with `args`, and has an address to return to. -/
structure Base.CalledWith (b : Base) (args : List Value) : Prop where
  words : ∃ caller deep, CallWords b.low caller args deep
  address : ∃ ret returns, b.rest = ret :: returns

/-- The arguments of the current frame, if the callee was called with `args`. -/
def Suspended.arguments (args : List Value) : List Suspended → List Value
  | [] => args
  | f :: _ => f.values.take f.count

open Suspended

theorem Base.CalledWith.stacked {b : Base} {args : List Value} (h : b.CalledWith args)
    (frames : List Suspended) :
    ∃ caller deep, CallWords (stacked b.low frames) caller (arguments args frames) deep := by
  cases frames with
  | nil => exact h.words
  | cons f frames => exact ⟨_, _, callWords_stacked b.low f frames⟩

/-- The stack of the given values, without a limit. -/
def OperandStack.ofTopDown (values : List Value) : OperandStack := ⟨⟨values, values.length, rfl⟩, 0⟩

namespace Machine

variable {m m' m₁ : Machine} {b b' : Base} {s t : OperandStack} {frames : List Suspended} {args : List Value}
  {i : Instruction} {start : Nat}

/-- The machine has the values of `s` in its current frame, which lies on the frames that wait for it. -/
structure Holds (b : Base) (s : OperandStack) (frames : List Suspended) (m : Machine) : Prop where
  frame : m.HasFrame s (stacked b.low frames)
  returns_eq : m.returns.topDown = frames.map (·.ret) ++ b.rest

/-- The machine has no limits, and its output always gets through. -/
structure Unlimited (m : Machine) : Prop where
  stack_eq : m.stack.limit = 0
  calls_eq : m.config.maxCallDepth = 0
  budget_eq : m.config.maxInstructions = 0
  sink : m.sink.NeverFails

/-- Two machines that are in the same place of the same program, with the same frames on `b` and on `b'`. -/
structure Mirrors (b b' : Base) (m m' : Machine) : Prop where
  inner : ∃ s frames, m.Holds b s frames ∧ m'.Holds b' s frames
  program_eq : m'.program = m.program
  policy_eq : m'.reporter.fatalTypeMismatch = m.reporter.fatalTypeMismatch
  ip_eq : m'.ip = m.ip
  state_eq : m'.state = m.state
  unlimited : m.Unlimited
  unlimited' : m'.Unlimited

/-- An instruction has written `text` and changed nothing else but the stack, the frames, the address and the
state. -/
structure Writes (m m₁ : Machine) (text : ByteString) : Prop where
  program_eq : m₁.program = m.program
  config_eq : m₁.config = m.config
  reporter_eq : m₁.reporter = m.reporter
  executed_eq : m₁.executed = m.executed
  sink : m₁.sink.NeverFails
  written_eq : m₁.sink.written = m.sink.written ++ text

theorem writes_nothing (h : m.Unlimited) (stack : OperandStack) (returns : Pile Nat) (ip fp : Nat)
    (state : RunState) : m.Writes { m with stack, returns, ip, fp, state } .empty :=
  ⟨rfl, rfl, rfl, rfl, h.sink, (ByteString.append_empty _).symm⟩

/-- What the executions of one instruction by two machines have in common.  If the callee returns, nothing is
said of the second one. -/
inductive Alike (b b' : Base) (m m' : Machine) : Execution → Execution → Prop
  | refused (cause : Cause) : Alike b b' m m' (.fault m cause) (.fault m' cause)
  | went {e e' : Execution} (text : ByteString) (ht : e.trap = none) (ht' : e'.trap = none)
    (hw : m.Writes e.machine text) (hw' : m'.Writes e'.machine text)
    (inner : ∃ s frames, e.machine.Holds b s frames ∧ e'.machine.Holds b' s frames)
    (hip : e'.machine.ip = e.machine.ip) (hstate : e'.machine.state = e.machine.state) :
    Alike b b' m m' e e'
  | returned {e e' : Execution} (h : e.machine.callDepth < b.rest.length) : Alike b b' m m' e e'

/-! ## The frames after an instruction -/

theorem Holds.limit_eq (h : m.Holds b s frames) : m.stack.limit = 0 := by
  rw [h.frame.stack_eq]
  exact h.frame.limit_eq

theorem Holds.fp_le (h : m.Holds b s frames) : m.fp ≤ m.stack.depth := by
  rw [h.frame.depth_eq]
  exact Nat.le_add_left _ _

theorem Holds.of_stack (h : m.Holds b s frames) (hs : m₁.stack = t.onto (stacked b.low frames))
    (hlimit : t.limit = 0) (hfp : m₁.fp = m.fp) (hreturns : m₁.returns = m.returns) :
    m₁.Holds b t frames :=
  ⟨⟨hs, hfp.trans h.frame.fp_eq, hlimit⟩, by rw [hreturns]; exact h.returns_eq⟩

theorem Holds.drop (h : m.Holds b s frames) {n : Nat} (hn : n ≤ s.depth) (hs : m₁.stack = m.stack.drop n)
    (hfp : m₁.fp = m.fp) (hreturns : m₁.returns = m.returns) : m₁.Holds b (s.drop n) frames :=
  h.of_stack (by rw [hs, h.frame.stack_eq, OperandStack.drop_onto hn]) h.frame.limit_eq hfp hreturns

theorem Holds.enter (h : m.Holds b s frames) {count : Nat} (hcount : count ≤ s.values.topDown.length)
    (ip : Nat) :
    (m.enter ip count).Holds b (.ofTopDown []) (⟨s.values.topDown, count, hcount, m.ip⟩ :: frames) := by
  have htop : m.stack.values.topDown = s.values.topDown ++ stacked b.low frames := by
    rw [h.frame.stack_eq, OperandStack.topDown_onto]
  constructor
  case frame =>
    refine ⟨OperandStack.eq_of_topDown ?_ h.limit_eq, ?_, rfl⟩
    · change Value.int (Int64.ofNat m.fp) :: .int (Int64.ofNat count) :: m.stack.values.topDown = _
      rw [htop, h.frame.fp_eq, length_stacked]
      simp [OperandStack.topDown_onto, OperandStack.ofTopDown, stacked, words]
    · change m.stack.depth + 2 = _
      rw [OperandStack.depth_eq_length, htop, length_stacked, List.length_append, length_stacked, height]
      dsimp only
      omega
  case returns_eq =>
    change m.ip :: m.returns.topDown = _
    rw [h.returns_eq]
    rfl

theorem topDown_cut (base : Nat) (result : Option Value) :
    (m.cut base result).values.topDown = result.toList ++ (m.stack.truncate base).values.topDown := by
  cases result <;> rfl

theorem Holds.leave {f : Suspended} (h : m.Holds b s (f :: frames)) (result : Option Value)
    (hs : m₁.stack = m.cut (f.values.drop f.count ++ stacked b.low frames).length result)
    (hfp : m₁.fp = (stacked b.low frames).length) (hreturns : m₁.returns = m.returns.tail) :
    m₁.Holds b (.ofTopDown (result.toList ++ f.values.drop f.count)) frames := by
  have htop : m.stack.values.topDown =
      (s.values.topDown ++ (.int (Int64.ofNat (stacked b.low frames).length) ::
        .int (Int64.ofNat (f.values.take f.count).length) :: f.values.take f.count))
        ++ (f.values.drop f.count ++ stacked b.low frames) := by
    rw [h.frame.stack_eq, OperandStack.topDown_onto, (callWords_stacked b.low f frames).eq]
    simp only [List.append_assoc, List.cons_append]
  constructor
  case frame =>
    refine ⟨?_, hfp, rfl⟩
    rw [hs]
    refine OperandStack.eq_of_topDown ?_ ((cut_limit m _ result).trans h.limit_eq)
    rw [topDown_cut, OperandStack.topDown_truncate htop, OperandStack.topDown_onto, ← List.append_assoc]
    rfl
  case returns_eq =>
    rw [hreturns]
    change m.returns.topDown.tail = _
    rw [h.returns_eq]
    rfl

/-! ## One instruction -/

theorem Mirrors.alike_computed (h : Mirrors b b' m m') (ha : m.Holds b s frames) (ha' : m'.Holds b' s frames)
    {r : Except Cause OperandStack} (hr : m.computed? i = some (r.map (·.onto (stacked b.low frames))))
    (hr' : m'.computed? i = some (r.map (·.onto (stacked b'.low frames))))
    (hlimit : ∀ t, r = .ok t → t.limit = 0) :
    Alike b b' m m' (m.execute start i) (m'.execute start i) := by
  rw [execute_computed hr, execute_computed hr']
  cases r with
  | error cause => exact .refused cause
  | ok t =>
    exact .went .empty rfl rfl (writes_nothing h.unlimited ..) (writes_nothing h.unlimited' ..)
      ⟨t, frames, ha.of_stack rfl (hlimit t rfl) rfl rfl, ha'.of_stack rfl (hlimit t rfl) rfl rfl⟩ h.ip_eq h.state_eq

theorem Mirrors.alike_written (h : Mirrors b b' m m') (ha : m.Holds b s frames) (ha' : m'.Holds b' s frames)
    (hreach : i.reach ≤ s.depth) {r : Except Cause String} (hr : m.written? i = some r)
    (hr' : m'.written? i = some r) : Alike b b' m m' (m.execute start i) (m'.execute start i) := by
  rw [execute_written hr, execute_written hr']
  cases r with
  | error cause => exact .refused cause
  | ok text =>
    change Alike b b' m m' (m.output text (m.stack.drop i.reach)) (m'.output text (m'.stack.drop i.reach))
    rw [output, output, h.unlimited.sink.write_eq, h.unlimited'.sink.write_eq]
    exact .went (.ofString text) rfl rfl
      ⟨rfl, rfl, rfl, rfl, h.unlimited.sink.accept _, rfl⟩ ⟨rfl, rfl, rfl, rfl, h.unlimited'.sink.accept _, rfl⟩
      ⟨_, frames, ha.drop hreach rfl rfl rfl, ha'.drop hreach rfl rfl rfl⟩ h.ip_eq h.state_eq

/-- An instruction that goes on at an address which it finds out from the values of the current frame. -/
theorem Mirrors.alike_going (h : Mirrors b b' m m') (ha : m.Holds b s frames) (ha' : m'.Holds b' s frames)
    (hreach : m.TargetsInCode i → i.reach ≤ s.depth) (hi : i.keepsFrame = true) {r : Except Cause Nat}
    (hr : (alone m.program m.ip s).destination? i = some r) :
    Alike b b' m m' (m.execute start i) (m'.execute start i) := by
  by_cases htargets : m.TargetsInCode i
  · have hin := hreach htargets
    have hd := destination?_onto ha.frame hin
    have hd' := destination?_onto ha'.frame hin
    rw [h.program_eq, h.ip_eq, hr] at hd'
    rw [hr] at hd
    rw [execute_destination hd, execute_destination hd']
    cases r with
    | error cause => exact .refused cause
    | ok ip =>
      exact .went .empty rfl rfl (writes_nothing h.unlimited ..) (writes_nothing h.unlimited' ..)
        ⟨_, frames, ha.drop hin rfl rfl rfl, ha'.drop hin rfl rfl rfl⟩ rfl h.state_eq
  · obtain ⟨cause, hcause⟩ := destination?_of_not_targetsInCode htargets hi
    rw [execute_destination (hcause m rfl), execute_destination (hcause m' h.program_eq)]
    exact .refused cause

theorem Mirrors.alike_call (h : Mirrors b b' m m') (ha : m.Holds b s frames) (ha' : m'.Holds b' s frames)
    (target argc : Word) :
    Alike b b' m m' (m.execute start (.call target argc)) (m'.execute start (.call target argc)) := by
  have hcheck := checkCall_onto ha.frame h.unlimited.calls_eq target argc
  have hcheck' := checkCall_onto ha'.frame h.unlimited'.calls_eq target argc
  rw [h.program_eq, h.ip_eq] at hcheck'
  rw [execute, call, hcheck, execute, call, hcheck']
  cases hr : (alone m.program m.ip s).checkCall target argc with
  | error cause => exact .refused cause
  | ok r =>
    obtain ⟨ip, count⟩ := r
    have hcount : count ≤ s.values.topDown.length := by
      rw [← OperandStack.depth_eq_length]
      exact (checkCall_eq_ok hr).2.2.1
    have henter := ha'.enter hcount ip
    rw [h.ip_eq] at henter
    exact .went .empty rfl rfl (writes_nothing h.unlimited ..) (writes_nothing h.unlimited' ..)
      ⟨_, _, ha.enter hcount ip, henter⟩ rfl h.state_eq

/-- The callee's own frame is left for its caller. -/
theorem Holds.execute_return (h : m.Holds b s []) (hb : b.CalledWith args) (hfp : m.fp < 2 ^ 63)
    {withResult : Bool} {result : Option Value} (hr : m.frameResult withResult = .ok result) :
    (m.execute start (.leave withResult)).machine.callDepth < b.rest.length := by
  obtain ⟨caller, deep, hwords⟩ := hb.words
  obtain ⟨ret, returns, hrest⟩ := hb.address
  have hbound : b.low.length < 2 ^ 63 := h.frame.fp_eq ▸ hfp
  have hret : m.returns.topDown = ret :: returns := h.returns_eq.trans hrest
  have hexit := hwords.frameExit_eq h.frame.stack_eq h.frame.fp_eq hbound hret
  have hheight : m.returns.height = returns.length + 1 := by
    rw [m.returns.height_eq, hret]
    rfl
  rw [execute_leave h.frame.fits start hr hexit, hrest]
  change m.returns.height - 1 < returns.length + 1
  omega

/-- A frame that was called from a suspended one is left for it. -/
theorem Holds.execute_leave {f : Suspended} (h : m.Holds b s (f :: frames)) (hfp : m.fp < 2 ^ 63)
    {withResult : Bool} {result : Option Value} (hr : m.frameResult withResult = .ok result) (start : Nat) :
    m.execute start (.leave withResult) =
      ⟨{ m with
          stack := m.cut (f.values.drop f.count ++ stacked b.low frames).length result
          returns := m.returns.tail
          fp := (stacked b.low frames).length
          ip := f.ret },
        [.returned f.ret (stacked b.low frames).length, .left result], none⟩ := by
  have hbound : (stacked b.low (f :: frames)).length < 2 ^ 63 := h.frame.fp_eq ▸ hfp
  have hexit := (callWords_stacked b.low f frames).frameExit_eq h.frame.stack_eq h.frame.fp_eq hbound h.returns_eq
  rw [Machine.execute_leave h.frame.fits start hr hexit]

theorem Mirrors.alike_leave (h : Mirrors b b' m m') (ha : m.Holds b s frames) (ha' : m'.Holds b' s frames)
    (hb : b.CalledWith args) (hfp : m.fp < 2 ^ 63) (hfp' : m'.fp < 2 ^ 63) (withResult : Bool) :
    Alike b b' m m' (m.execute start (.leave withResult)) (m'.execute start (.leave withResult)) := by
  have hresult := frameResult_onto ha.frame withResult
  have hresult' := frameResult_onto ha'.frame withResult
  rw [h.program_eq, h.ip_eq] at hresult'
  cases hr : (alone m.program m.ip s).frameResult withResult with
  | error cause =>
    rw [execute, leave, hresult, hr, execute, leave, hresult', hr]
    exact .refused cause
  | ok result =>
    cases frames with
    | nil => exact .returned (ha.execute_return hb hfp (hresult.trans hr))
    | cons f frames =>
      rw [ha.execute_leave hfp (hresult.trans hr), ha'.execute_leave hfp' (hresult'.trans hr)]
      exact .went .empty rfl rfl (writes_nothing h.unlimited ..) (writes_nothing h.unlimited' ..)
        ⟨_, frames, ha.leave result rfl rfl rfl, ha'.leave result rfl rfl rfl⟩ rfl h.state_eq

/-- An instruction that computes a stack from the values of the current frame. -/
theorem Mirrors.alike_alone (h : Mirrors b b' m m') (ha : m.Holds b s frames) (ha' : m'.Holds b' s frames)
    (hreach : i.reach ≤ s.depth) (hi : ∀ n, i ≠ .pushArg n) {r : Except Cause OperandStack}
    (hr : (alone m.program m.ip s).computed? i = some r) :
    Alike b b' m m' (m.execute start i) (m'.execute start i) := by
  have hc := computed?_onto ha.frame hreach hi
  have hc' := computed?_onto ha'.frame hreach hi
  rw [h.program_eq, h.ip_eq, hr] at hc'
  rw [hr] at hc
  refine h.alike_computed ha ha' hc hc' fun t ht => ?_
  rw [ht] at hr
  exact (computes hr).limit_eq.trans ha.frame.limit_eq

theorem Holds.computed?_pushArg (h : m.Holds b s frames) (hb : b.CalledWith args) (hfp : m.fp < 2 ^ 63)
    (n : Word) :
    m.computed? (.pushArg n) =
      some ((argument (arguments args frames) n >>= s.push).map (·.onto (stacked b.low frames))) := by
  obtain ⟨caller, deep, hwords⟩ := hb.stacked frames
  have hbound : (stacked b.low frames).length < 2 ^ 63 := h.frame.fp_eq ▸ hfp
  rw [computed?, h.frame.stack_eq, h.frame.fp_eq, hwords.getArg_eq hbound]
  exact congrArg some (bind_push_onto h.frame.limit_eq _)

theorem Mirrors.alike_pushArg (h : Mirrors b b' m m') (ha : m.Holds b s frames) (ha' : m'.Holds b' s frames)
    (hb : b.CalledWith args) (hb' : b'.CalledWith args) (hfp : m.fp < 2 ^ 63) (hfp' : m'.fp < 2 ^ 63)
    (n : Word) : Alike b b' m m' (m.execute start (.pushArg n)) (m'.execute start (.pushArg n)) := by
  refine h.alike_computed ha ha' (ha.computed?_pushArg hb hfp n) (ha'.computed?_pushArg hb' hfp' n) ?_
  intro t ht
  obtain ⟨v, -, hpush⟩ := bind_eq_ok.1 ht
  obtain ⟨-, rfl⟩ := OperandStack.push_eq_ok.1 hpush
  exact ha.frame.limit_eq

/-- An instruction that takes its values from the current frame does the same to two machines with the same
frames.  Calls and returns see to this themselves. -/
theorem Mirrors.execute_alike (h : Mirrors b b' m m') (hb : b.CalledWith args) (hb' : b'.CalledWith args)
    (hfp : m.fp < 2 ^ 63) (hfp' : m'.fp < 2 ^ 63) (start : Nat) (i : Instruction)
    (hreach : i.keepsFrame = true → m.TargetsInCode i → i.reach ≤ m.stack.depth - m.fp) :
    Alike b b' m m' (m.execute start i) (m'.execute start i) := by
  obtain ⟨s, frames, ha, ha'⟩ := h.inner
  rw [ha.frame.depth_eq, Nat.add_sub_cancel] at hreach
  cases i with
  | leave withResult => exact h.alike_leave ha ha' hb hfp hfp' withResult
  | call target argc => exact h.alike_call ha ha' target argc
  | halt =>
    exact .went .empty rfl rfl (writes_nothing h.unlimited ..) (writes_nothing h.unlimited' ..)
      ⟨s, frames, ha.of_stack ha.frame.stack_eq ha.frame.limit_eq rfl rfl,
        ha'.of_stack ha'.frame.stack_eq ha'.frame.limit_eq rfl rfl⟩ h.ip_eq rfl
  | lineFeed | print =>
    have hin := hreach rfl (targetsInCode_of_nil rfl)
    have hw := written?_onto ha.frame hin
    have hw' := written?_onto ha'.frame hin
    rw [h.program_eq, h.ip_eq] at hw'
    exact h.alike_written ha ha' hin hw hw'
  | jump | branch | choose => exact h.alike_going ha ha' (hreach rfl) rfl rfl
  | pushArg n => exact h.alike_pushArg ha ha' hb hb' hfp hfp' n
  | _ => exact h.alike_alone ha ha' (hreach rfl (targetsInCode_of_nil rfl)) nofun rfl

end Machine

end StackMachine

import StackMachine.Proofs.Frames.Interior
import StackMachine.Proofs.Machine.Stopped

/-!
Loading arguments.  A new machine either has room for the whole first frame or stays as it is, the frame gives
back every argument, and it is loaded once: whatever a host does after that, the machine does not take another.
-/

set_option autoImplicit false

namespace StackMachine

variable {args : List Value} {n : Word}

/-! ## Arguments by their number -/

theorem argument_of_le (hbound : args.length < 2 ^ 63) {i : Nat} (hn : n.toInt = i) (hi : i ≤ args.length) :
    argument args n = .ok ((.int (Int64.ofNat args.length) :: args).getD i .null) := by
  have hrange : ¬ (n < 0 ∨ Int64.ofNat args.length < n) := by
    rw [Int64.lt_iff_toInt_lt, Int64.lt_iff_toInt_lt, Word.toInt_ofNat hbound, Int64.toInt_zero, hn]
    omega
  rw [argument, if_neg hrange, hn, Int.toNat_natCast]

theorem argument_of_outside (hbound : args.length < 2 ^ 63) (hn : n.toInt < 0 ∨ args.length < n.toInt) :
    argument args n = .error (.argumentOffset n (Int64.ofNat args.length)) := by
  refine if_pos ?_
  rw [Int64.lt_iff_toInt_lt, Int64.lt_iff_toInt_lt, Word.toInt_ofNat hbound]
  exact hn

namespace Machine

variable {m : Machine}

/-! ## The first frame -/

/-- The stack and the frame pointer of a machine that was loaded with `args`. -/
structure FirstFrame (args : List Value) (stack : OperandStack) (fp : Nat) : Prop where
  toList : stack.toList = args.reverse ++ [.int (Int64.ofNat args.length), .int (-1)]
  fp_eq : fp = args.length + 2
  count : stack.getArg fp 0 = .ok (.int (Int64.ofNat args.length))
  argument : ∀ i (hi : i < args.length), stack.getArg fp (Int64.ofNat (i + 1)) = .ok args[i]
  outside : ∀ n : Word, n.toInt < 0 ∨ args.length < n.toInt →
    ∃ cause, stack.getArg fp n = .error cause ∧ cause.kind = .outOfRangeFrameOffset

theorem firstFrame_of_topDown {stack : OperandStack} (hbound : args.length < 2 ^ 63)
    (h : stack.values.topDown = loaderFrame args) : FirstFrame args stack (args.length + 2) := by
  have htoList : stack.toList = (loaderFrame args).reverse := congrArg List.reverse h
  have hslots : ∀ i ≤ args.length,
      stack.get? (args.length + 2 - 2 - i) = (Value.int (Int64.ofNat args.length) :: args)[i]? := by
    intro i hi
    rw [OperandStack.get?_eq_getElem?, htoList, loaderFrame, List.getElem?_reverse (by simp; omega)]
    rw [List.length_cons, List.length_cons,
      show args.length + 1 + 1 - 1 - (args.length + 2 - 2 - i) = i + 1 by omega, List.getElem?_cons_succ]
  have hget := getArg_of_slots (Nat.le_refl (args.length + 2)) hbound hslots
  constructor
  case toList => rw [htoList, loaderFrame, List.reverse_cons, List.reverse_cons, List.append_assoc]; rfl
  case fp_eq => rfl
  case count => exact (hget 0).trans (argument_of_le hbound rfl (Nat.zero_le _))
  case argument =>
    intro i hi
    rw [hget, argument_of_le hbound (Word.toInt_ofNat (by omega)) hi, List.getD_cons_succ,
      List.getD_eq_getElem?_getD, List.getElem?_eq_getElem hi, Option.getD_some]
  case outside => exact fun n hn => ⟨_, (hget n).trans (argument_of_outside hbound hn), rfl⟩

/-! ## Only once -/

/-- Something has been executed or put on the stack. -/
def HasStarted (m : Machine) : Prop := m.executed ≠ 0 ∨ 0 < m.stack.depth

theorem HasStarted.step (h : m.HasStarted) : m.step.machine.HasStarted := by
  have hsteps := steps m
  generalize m.step = r at hsteps
  cases hsteps with
  | stopped | ended => exact h
  | exhausted =>
    rw [raise_machine]
    exact h
  | undecoded =>
    rw [raise_machine]
    exact .inl (Nat.succ_ne_zero _)
  | @performed d =>
    obtain ⟨-, hexecuted⟩ := work_of_performed m d (m.announce d.op)
    exact .inl (hexecuted ▸ Nat.succ_ne_zero _)

theorem hasStarted_of_load (h : (m.load args).result = .ok ()) : (m.load args).machine.HasStarted := by
  rcases load_cases m args with ⟨e, he⟩ | ⟨-, -, -, stack, rfl, he⟩
  · rw [he] at h
    cases h
  · rw [he]
    exact .inr (Nat.lt_of_lt_of_le (Nat.succ_pos _) (Nat.le_add_right _ _))

theorem stable_hasStarted : Stable HasStarted where
  load {m} args h := by
    rw [load_of_started h]
    exact h
  step h := h.step
  finish {m} h := by
    obtain ⟨sink, hm⟩ := finish_machine m
    rw [hm]
    exact h

/-- After arguments have been loaded, none are ever loaded again. -/
theorem load_of_loaded (h : (m.load args).result = .ok ()) (calls : List HostCall) (later : List Value) :
    (calls.foldl respond (m.load args).machine).load later =
      ⟨calls.foldl respond (m.load args).machine, [], .error .alreadyStarted⟩ :=
  load_of_started (stable_hasStarted.hosted (fun _ h => h) calls (hasStarted_of_load h)) later

/-! ## The loader -/

/-- What loading does to a machine that takes arguments, and to all that becomes of it. -/
structure LoadsOnce (m : Machine) (args : List Value) : Prop where
  succeeds_iff : (m.load args).result = .ok () ↔
    m.config.maxStackDepth = 0 ∨ args.length + 2 ≤ m.config.maxStackDepth
  refused : (m.load args).result ≠ .ok () →
    ∃ cause, m.load args = ⟨m, [], .error (.load cause)⟩ ∧ cause.kind = .stackOverflow
  loaded : (m.load args).result = .ok () →
    ∃ stack fp, (m.load args).machine = { m with stack, fp } ∧ stack.limit = m.stack.limit
      ∧ FirstFrame args stack fp
  once : (m.load args).result = .ok () → ∀ calls later,
    (List.foldl respond (m.load args).machine calls).load later =
      ⟨List.foldl respond (m.load args).machine calls, [], .error .alreadyStarted⟩

theorem reserve_of_new {s : OperandStack} (hempty : s.depth = 0) {n : Nat} (hn : n < 2 ^ 63) :
    s.reserve n = .ok () ↔ s.limit = 0 ∨ n ≤ s.limit := by
  rw [OperandStack.reserve_eq_ok, hempty, OperandStack.largestDepth, Word.cardinality]
  omega

theorem load_of_refused (hnew : m.executed = 0) (hempty : m.stack.depth = 0)
    (h : (m.load args).result ≠ .ok ()) :
    ∃ cause, m.load args = ⟨m, [], .error (.load cause)⟩ ∧ cause.kind = .stackOverflow := by
  have hroom := mt (load_of_new hnew hempty args).2 h
  rw [load, if_neg (by simp [OperandStack.isEmpty, hnew, hempty])]
  cases hreserve : m.stack.reserve (args.length + 2) with
  | ok => exact absurd hreserve hroom
  | error cause =>
    refine ⟨cause, rfl, ?_⟩
    rw [OperandStack.reserve_eq_error hreserve]
    rfl

theorem load_of_room (hempty : m.stack.depth = 0) (hargs : args.length + 2 < 2 ^ 63)
    (h : (m.load args).result = .ok ()) :
    ∃ stack fp, (m.load args).machine = { m with stack, fp } ∧ stack.limit = m.stack.limit
      ∧ FirstFrame args stack fp := by
  rcases load_cases m args with ⟨e, he⟩ | ⟨-, -, -, stack, hstack, he⟩
  · rw [he] at h
    cases h
  · have hnone : m.stack.values.topDown = [] := by
      rw [OperandStack.depth_eq_length] at hempty
      exact List.eq_nil_of_length_eq_zero hempty
    have htop : stack.values.topDown = loaderFrame args := by
      rw [hstack]
      change loaderFrame args ++ m.stack.values.topDown = _
      rw [hnone, List.append_nil]
    have hdepth : stack.depth = args.length + 2 := by
      rw [OperandStack.depth_eq_length, htop]
      rfl
    rw [he]
    exact ⟨stack, stack.depth, rfl, hstack ▸ rfl, hdepth ▸ firstFrame_of_topDown (by omega) htop⟩

/-- A machine loads arguments just if they fit, unless it has started, and then they are its first frame.  A list
that fits into memory is shorter than `2 ^ 63`. -/
theorem new_machine_loads_once (program : Program) (config : Config) (sink : Sink) (args : List Value)
    (hargs : args.length + 2 < 2 ^ 63) : ((Machine.start program sink).withConfig config).LoadsOnce args := by
  generalize hm : (Machine.start program sink).withConfig config = m
  have hnew : m.executed = 0 := hm ▸ rfl
  have hempty : m.stack.depth = 0 := hm ▸ rfl
  have hlimit : m.stack.limit = m.config.maxStackDepth := hm ▸ rfl
  constructor
  case succeeds_iff => rw [load_of_new hnew hempty, reserve_of_new hempty hargs, hlimit]
  case refused => exact load_of_refused hnew hempty
  case loaded => exact load_of_room hempty hargs
  case once => exact load_of_loaded

/-- Two arguments on a stack that has room for them and no more. -/
theorem new_machine_loads_once_two :
    [Value.int 7, .real 1.5].length + 2 < 2 ^ 63 ∧
      ((Machine.start .empty .unlimited).withConfig { Config.default with maxStackDepth := 4 }).LoadsOnce
        [.int 7, .real 1.5] := by
  have hargs : [Value.int 7, .real 1.5].length + 2 < 2 ^ 63 := by decide
  exact ⟨hargs, new_machine_loads_once .empty { Config.default with maxStackDepth := 4 } .unlimited
    [.int 7, .real 1.5] hargs⟩

end Machine

end StackMachine

import StackMachine.Proofs.Frames.Chain
import StackMachine.Proofs.Machine.Faults
import StackMachine.Proofs.Machine.Reachable

/-!
Activations: the machines between a call and the return to the caller.  As long as every instruction takes
its values from the current frame, the slots below the first frame stay, and the frames on them form a chain.
-/

set_option autoImplicit false

namespace StackMachine.Machine

variable {m m₀ : Machine} {start : Nat} {i : Instruction} {base : Nat} {rest : List Nat}

/-! ## One step in a chain of frames -/

/-- If the next step does not fault, then its instruction takes the values that it pops, copies or reorders
from the current frame. -/
def InFrame (m : Machine) : Prop :=
  ∀ d, m.next? = some d → m.step.reports = [] → d.instruction.reach ≤ m.stack.depth - m.fp

/-- The current frame lies on the stack, at the end of a chain from `base`. -/
structure Frames (base : Nat) (rest : List Nat) (m : Machine) : Prop where
  fp_le : m.fp ≤ m.stack.depth
  chain : Chain base rest m.stack m.fp m.returns.topDown

/-- The frame at the start of the chain is left. -/
structure LeavesOwn (base : Nat) (rest : List Nat) (m : Machine) (i : Instruction) : Prop where
  fp_eq : m.fp = base
  returns_eq : m.returns.topDown = rest
  leave : ∃ withResult result, i = .leave withResult ∧ m.frameResult withResult = .ok result

/-- The frames below the current one and the slots below the first frame stay. -/
def StaysAbove (base : Nat) (rest : List Nat) (m m' : Machine) : Prop :=
  Frames base rest m' ∧ OperandStack.AgreeBelow base m.stack m'.stack

theorem Frames.of_stack (hf : Frames base rest m) {m' : Machine} (hfp : m'.fp = m.fp)
    (hreturns : m'.returns = m.returns) (hs : OperandStack.AgreeBelow m.fp m.stack m'.stack)
    (hdepth : m.fp ≤ m'.stack.depth) : StaysAbove base rest m m' := by
  refine ⟨⟨hfp ▸ hdepth, ?_⟩, hs.mono hf.chain.base_le⟩
  rw [hfp, hreturns]
  exact hf.chain.of_agreeBelow hs

theorem Frames.drop (hf : Frames base rest m) {n : Nat} (hn : n ≤ m.stack.depth - m.fp) {m' : Machine}
    (hfp : m'.fp = m.fp) (hreturns : m'.returns = m.returns) (hs : m'.stack = m.stack.drop n) :
    StaysAbove base rest m m' := by
  have hle := hf.fp_le
  refine hf.of_stack hfp hreturns ?_ ?_ <;> rw [hs]
  · exact OperandStack.agreeBelow_drop (by omega)
  · rw [OperandStack.depth_drop]
    omega

theorem Frames.enter (hf : Frames base rest m) {ip count : Nat}
    (hcount : count ≤ m.stack.depth - m.fp) (ha : (m.enter ip count).stack.Addressable) :
    StaysAbove base rest m (m.enter ip count) := by
  have hle := hf.fp_le
  have hdepth : (m.enter ip count).stack.depth = m.stack.depth + 2 := rfl
  have hlist : (m.enter ip count).stack.toList
      = m.stack.toList ++ [.int (Int64.ofNat count), .int (Int64.ofNat m.fp)] := by
    show ((m.stack.put _).put _).toList = _
    simp
  have hs : OperandStack.AgreeBelow m.stack.depth m.stack (m.enter ip count).stack :=
    (OperandStack.agreeBelow_put (Nat.le_refl _)).trans
      (OperandStack.agreeBelow_put (by rw [OperandStack.depth_put]; omega))
  have hlen : m.stack.toList.length = m.stack.depth := m.stack.length_toList
  refine ⟨⟨Nat.le_refl _, ?_⟩, hs.mono (by have := hf.chain.base_le; omega)⟩
  show Chain base rest _ (m.stack.depth + 2) (m.ip :: m.returns.topDown)
  have hfit : m.fp + count + 2 ≤ m.stack.depth + 2 := by omega
  refine .nested (hf.chain.of_agreeBelow (hs.mono hle)) ?_ ?_ hfit ha
  · rw [OperandStack.get?_eq_getElem?, hlist, List.getElem?_append_right (by omega), hlen]
    simp
  · rw [OperandStack.get?_eq_getElem?, hlist, List.getElem?_append_right (by omega), hlen]
    simp

/-- Leaving a frame that a call in the chain entered leads back to the frame of its caller. -/
theorem Frames.leave (hf : Frames base rest m) {exit : FrameExit} (he : m.frameExit = .ok exit)
    (result : Option Value) :
    (m.fp = base ∧ m.returns.topDown = rest) ∨
      ∃ fp ip, exit.resume = some (fp, ip) ∧ ∀ m' : Machine, m'.stack = m.cut exit.base result →
        m'.fp = fp → m'.returns = m.returns.tail → StaysAbove base rest m m' := by
  have hchain := hf.chain
  have hle := hf.fp_le
  generalize hreturns : m.returns.topDown = returns at hchain
  generalize hfp : m.fp = at_ at hchain
  cases hchain with
  | own => exact .inl ⟨rfl, rfl⟩
  | @nested _ caller argc ret returns' h hlink hcount hfit hbound =>
    subst hfp
    rw [frameExit_of_words hlink hcount hfit hbound hreturns] at he
    cases he
    refine .inr ⟨caller, ret, rfl, fun m' hs hfp' hreturns' => ?_⟩
    have hbelow : m.fp - 2 - argc ≤ m.stack.depth := by omega
    have hagree := agreeBelow_cut hbelow result
    have htail : m'.returns.topDown = returns' := by
      rw [hreturns']
      exact congrArg List.tail hreturns
    refine ⟨⟨?_, ?_⟩, ?_⟩ <;> rw [hs]
    · rw [depth_cut, hfp']
      dsimp only
      omega
    · rw [hfp', htail]
      exact h.of_agreeBelow (hagree.mono (by omega))
    · have hbase := h.base_le
      exact hagree.mono (by omega)

/-- An instruction that takes its values from the current frame keeps the chain, unless it leaves the frame
at its start. -/
theorem Executes.frames {e : Execution} (h : m.Executes start i e) (hf : Frames base rest m)
    (hreach : (∀ cause, e.trap ≠ some (.fault cause)) → i.reach ≤ m.stack.depth - m.fp)
    (ha : e.machine.stack.Addressable) :
    StaysAbove base rest m e.machine ∨ LeavesOwn base rest m i := by
  have hstay : ∀ m' : Machine, m'.fp = m.fp → m'.returns = m.returns → m'.stack = m.stack →
      StaysAbove base rest m m' := by
    intro m' hfp hreturns hs
    refine hf.of_stack hfp hreturns ?_ ?_ <;> rw [hs]
    · exact .refl _ _
    · exact hf.fp_le
  cases h with
  | refused | unwritten | halted => exact .inl (hstay _ rfl rfl rfl)
  | written | went => exact .inl (hf.drop (hreach nofun) rfl rfl rfl)
  | computed h =>
    have hle := hf.fp_le
    have hin := hreach nofun
    obtain ⟨hagree, hdepth⟩ := (computes h).agreeBelow (Nat.le_refl m.fp) (by omega)
    exact .inl (hf.of_stack rfl rfl hagree hdepth)
  | called _ h =>
    obtain ⟨-, -, hcount, -, -⟩ := checkCall_eq_ok h
    exact .inl (hf.enter hcount ha)
  | resumed hi hr he =>
    rcases hf.leave he _ with ⟨hfp, hreturns⟩ | ⟨fp, ip, hresume, hstays⟩
    · exact .inr ⟨hfp, hreturns, _, _, hi, hr⟩
    · cases hresume
      exact .inl (hstays _ rfl rfl rfl)
  | finished hi hr he =>
    rcases hf.leave he none with ⟨hfp, hreturns⟩ | ⟨fp, ip, hresume, -⟩
    · exact .inr ⟨hfp, hreturns, _, _, hi, hr⟩
    · cases hresume

/-- A step that takes its values from the current frame keeps the chain, unless it leaves the frame at its
start. -/
theorem step_frames (fits : m.stack.Fits) (hf : Frames base rest m) (hin : m.InFrame)
    (ha : m.step.machine.stack.Addressable) :
    StaysAbove base rest m m.step.machine ∨
      ∃ d, m.next? = some d ∧ LeavesOwn base rest m d.instruction := by
  cases lands fits with
  | stays executed count sink state h =>
    rw [h]
    exact .inl ⟨⟨hf.fp_le, hf.chain⟩, .refl _ _⟩
  | @executes d e hn he hquiet count sink state h =>
    rw [h] at ha ⊢
    have hf' : Frames base rest (m.fetch d) := ⟨hf.fp_le, hf.chain⟩
    rcases he.frames hf' (fun ht => hin d hn (hquiet ht)) ha with hstay | hleave
    · exact .inl ⟨⟨hstay.1.fp_le, hstay.1.chain⟩, hstay.2⟩
    · exact .inr ⟨d, hn, hleave.fp_eq, hleave.returns_eq, hleave.leave⟩

/-! ## From a call to the return -/

/-- The next step of `m` takes the instruction `d`, which calls with `count` arguments. -/
structure Calls (m : Machine) (d : Decoded) (argc : Word) (ip count : Nat) : Prop where
  next_eq : m.next? = some d
  fp_le : m.fp ≤ m.stack.depth
  checked : ∃ target, d.instruction = .call target argc
    ∧ (m.fetch d).checkCall target argc = .ok (ip, count)

/-- The machines of a run from a call of `m₀` on that have not returned to it. -/
inductive Activation (m₀ : Machine) : Machine → Prop
  | entered (ha : m₀.step.machine.stack.Addressable) : Activation m₀ m₀.step.machine
  | step {m : Machine} (h : Activation m₀ m) (hin : m.InFrame)
    (hlive : m₀.callDepth < m.step.machine.callDepth) (ha : m.step.machine.stack.Addressable) :
    Activation m₀ m.step.machine

theorem Calls.step_eq {d : Decoded} {argc : Word} {ip count : Nat} (h : m.Calls d argc ip count) :
    m.step.machine = (m.fetch d).enter ip count := by
  obtain ⟨target, hi, hcheck⟩ := h.checked
  rw [step_of_next? h.next_eq, hi, execute, call, hcheck]
  rfl

/-- What holds between a call and the return. -/
structure Within (m₀ : Machine) (d : Decoded) (ip count : Nat) (m : Machine) : Prop where
  fits : m.stack.Fits
  addressable : m.stack.Addressable
  below : OperandStack.AgreeBelow (m₀.stack.depth + 2) ((m₀.fetch d).enter ip count).stack m.stack
  frames : Frames (m₀.stack.depth + 2) (d.next :: m₀.returns.topDown) m

end StackMachine.Machine

import StackMachine.Proofs.Frames.Lockstep
import StackMachine.Proofs.Frames.Return

/-!
A call does not depend on where it is made.  Two machines that call the same code with the same arguments go on
alike until the first of them returns, however different the stacks are that their callers have: nothing that
tells a frame's place on the stack gets into a value, a branch, a message or the output.
-/

set_option autoImplicit false

namespace StackMachine

open Suspended

namespace Machine

variable {m m' m₀ m₀' : Machine} {b b' : Base} {d d' : Decoded} {argc : Word} {ip count n : Nat}
  {s : OperandStack} {frames : List Suspended}

/-! ## The callee's part of the stack -/

/-- The slot at which the frame of a callee begins that the next step of the machine calls. -/
def calleeFp (m : Machine) : Nat := m.stack.depth + 2

/-- The frames of the calls that have been made above the frame at `base`: the current frame, if it is one of
these, and all that the links lead to from there. -/
inductive NestedFrame (base : Nat) (m : Machine) : Nat → Prop
  | current (h : base < m.fp) : NestedFrame base m m.fp
  | caller {fp caller : Nat} {link : Word} (h : NestedFrame base m fp)
    (hlink : m.stack.get? (fp - 1) = some (.int link)) (hindex : Word.index? link = some caller)
    (hlt : base < caller) : NestedFrame base m caller

/-- Slot `i` above the frames at `base` and at `base'` holds the link of a nested frame.  It is the number of a
slot that lies as high above the one as above the other. -/
structure LinksAlike (base base' i : Nat) (m m' : Machine) : Prop where
  nested : NestedFrame base m (base + i + 1)
  nested' : NestedFrame base' m' (base' + i + 1)
  link : ∃ k < i, m.stack.get? (base + i) = some (.int (Int64.ofNat (base + k)))
    ∧ m'.stack.get? (base' + i) = some (.int (Int64.ofNat (base' + k)))

/-- Two machines in calls of `m₀` and of `m₀'` that are in the same place and have the same values on the stack
but for the links. -/
structure SameActivation (m₀ m₀' m m' : Machine) : Prop where
  ip_eq : m'.ip = m.ip
  state_eq : m'.state = m.state
  executed : ∃ k, m.executed = m₀.executed + k ∧ m'.executed = m₀'.executed + k
  depth : ∃ k, m.stack.depth = m₀.calleeFp + k ∧ m'.stack.depth = m₀'.calleeFp + k
  fp : ∃ k, m.fp = m₀.calleeFp + k ∧ m'.fp = m₀'.calleeFp + k
  slots : ∀ i, m'.stack.get? (m₀'.calleeFp + i) = m.stack.get? (m₀.calleeFp + i) ∨
    LinksAlike m₀.calleeFp m₀'.calleeFp i m m'

theorem Holds.get?_eq (h : m.Holds b s frames) (i : Nat) :
    m.stack.get? (b.low.length + i) = (s.onto (words b.low.length frames)).get? i := by
  have hassoc : s.onto (stacked b.low frames) = (s.onto (words b.low.length frames)).onto b.low :=
    OperandStack.eq_of_topDown (List.append_assoc ..).symm rfl
  rw [h.frame.stack_eq, hassoc, OperandStack.get?_onto]

/-- The slot of a link above the callee's frame. -/
theorem Holds.get?_link (h : m.Holds b s frames) {f : Suspended} {inner : List Suspended}
    (hsuffix : f :: inner <:+ frames) {i : Nat} (hi : i + 1 = height (f :: inner)) :
    m.stack.get? (b.low.length + i) = some (.int (Int64.ofNat (b.low.length + height inner))) := by
  have hle := height_le_of_suffix hsuffix
  rw [← hi, ← length_reverse_words b.low.length frames] at hle
  rw [h.get?_eq, OperandStack.get?_eq_getElem?, OperandStack.toList_onto, List.getElem?_append_left hle,
    link_eq b.low.length hsuffix hi]

/-- Every frame that waits is found from the current one by the links. -/
theorem Holds.nestedFrame (h : m.Holds b s frames) (hfp : m.fp < 2 ^ 63) {f : Suspended}
    {inner : List Suspended} (hsuffix : f :: inner <:+ frames) :
    NestedFrame b.low.length m (b.low.length + height (f :: inner)) := by
  have htop : m.fp = b.low.length + height frames := h.frame.fp_eq.trans (length_stacked b.low frames)
  -- from the current frame down to the one above `inner`
  have hdown : ∀ outer, outer <:+ frames → (outer ≠ [] → NestedFrame b.low.length m (b.low.length + height outer)) →
      f :: inner <:+ outer → NestedFrame b.low.length m (b.low.length + height (f :: inner)) := by
    intro outer
    induction outer with
    | nil => exact fun _ _ hin => absurd (List.suffix_nil.1 hin) (List.cons_ne_nil _ _)
    | cons g outer ih =>
      intro hout hnested hin
      rcases List.suffix_cons_iff.1 hin with heq | hin
      · exact heq ▸ hnested (List.cons_ne_nil _ _)
      · refine ih ((List.suffix_cons _ _).trans hout) (fun hne => ?_) hin
        have hlink := h.get?_link hout (Nat.succ_pred_eq_of_pos (Nat.succ_pos _))
        have hle := height_le_of_suffix hout
        obtain ⟨e, rest, rfl⟩ := List.exists_cons_of_ne_nil hne
        refine .caller (hnested (List.cons_ne_nil _ _)) hlink (Word.index?_ofNat ?_) ?_
        · simp only [height] at hle ⊢
          omega
        · simp only [height]
          omega
  refine hdown frames List.suffix_rfl (fun hne => ?_) hsuffix
  rw [← htop]
  refine .current ?_
  obtain ⟨e, rest, rfl⟩ := List.exists_cons_of_ne_nil hne
  rw [htop, height]
  omega

theorem Mirrors.slots (h : Mirrors b b' m m') (hfp : m.fp < 2 ^ 63) (hfp' : m'.fp < 2 ^ 63) (i : Nat) :
    m'.stack.get? (b'.low.length + i) = m.stack.get? (b.low.length + i) ∨
      LinksAlike b.low.length b'.low.length i m m' := by
  obtain ⟨s, frames, hs, hs'⟩ := h.inner
  rcases words_eq_or_link b.low.length b'.low.length frames i with hsame | ⟨f, inner, hsuffix, hi⟩
  · refine .inl ?_
    rw [hs.get?_eq, hs'.get?_eq, OperandStack.get?_eq_getElem?, OperandStack.get?_eq_getElem?,
      OperandStack.toList_onto, OperandStack.toList_onto]
    have hlen := length_reverse_words b.low.length frames
    have hlen' := length_reverse_words b'.low.length frames
    rcases Nat.lt_or_ge i (height frames) with hlt | hge
    · rw [List.getElem?_append_left (hlen'.symm ▸ hlt), hsame, List.getElem?_append_left (hlen.symm ▸ hlt)]
    · rw [List.getElem?_append_right (hlen'.symm ▸ hge), List.getElem?_append_right (hlen.symm ▸ hge), hlen, hlen']
  · refine .inr ⟨?_, ?_, height inner, ?_, hs.get?_link hsuffix hi, hs'.get?_link hsuffix hi⟩
    · rw [Nat.add_assoc, hi]
      exact hs.nestedFrame hfp hsuffix
    · rw [Nat.add_assoc, hi]
      exact hs'.nestedFrame hfp' hsuffix
    · rw [height] at hi
      omega

/-! ## The calls -/

/-- The next steps of both machines call the code at `ip` with the same arguments, and they have the same policy
and no limits.  The callers need not have anything else in common. -/
structure SameCall (m₀ m₀' : Machine) (argc : Word) (ip count : Nat) : Prop where
  calls : ∃ d, m₀.Calls d argc ip count
  calls' : ∃ d, m₀'.Calls d argc ip count
  args_eq : m₀'.stack.values.topDown.take count = m₀.stack.values.topDown.take count
  program_eq : m₀'.program = m₀.program
  policy_eq : m₀'.reporter.fatalTypeMismatch = m₀.reporter.fatalTypeMismatch
  unlimited : m₀.Unlimited
  unlimited' : m₀'.Unlimited

/-- In the `n` steps after its next one, which calls, the machine does not return to the caller, and every
instruction takes its values from the current frame. -/
structure StaysInCall (m₀ : Machine) (n : Nat) : Prop where
  live : ∀ j ≤ n, m₀.callDepth < (m₀.step.machine.after j).callDepth
  takes : ∀ j < n, (m₀.step.machine.after j).TakesFromFrame

/-- What lies below the callee of a call. -/
def callBase (m₀ : Machine) (d : Decoded) (ip count : Nat) : Base :=
  ⟨((m₀.fetch d).enter ip count).stack.values.topDown, d.next :: m₀.returns.topDown⟩

theorem length_callBase (m₀ : Machine) (d : Decoded) (ip count : Nat) :
    (m₀.callBase d ip count).low.length = m₀.calleeFp :=
  (OperandStack.depth_eq_length _).symm

theorem Calls.calledWith (h : m₀.Calls d argc ip count) :
    (m₀.callBase d ip count).CalledWith (m₀.stack.values.topDown.take count) := by
  have hle := h.count_le
  have hlen : (m₀.stack.values.topDown.take count).length = count := by
    rw [List.length_take, ← OperandStack.depth_eq_length]
    omega
  refine ⟨⟨m₀.fp, m₀.stack.values.topDown.drop count, ?_, ?_⟩, d.next, m₀.returns.topDown, rfl⟩
  · rw [hlen, List.take_append_drop]
    rfl
  · rw [List.length_drop, ← OperandStack.depth_eq_length]
    omega

theorem Calls.holds_step (h : m₀.Calls d argc ip count) (hu : m₀.Unlimited) :
    m₀.step.machine.Holds (m₀.callBase d ip count) (.ofTopDown []) [] := by
  rw [h.step_eq]
  exact ⟨⟨OperandStack.eq_of_topDown rfl hu.stack_eq, (length_callBase m₀ d ip count).symm, rfl⟩, rfl⟩

theorem Calls.unlimited_step (h : m₀.Calls d argc ip count) (hu : m₀.Unlimited) :
    m₀.step.machine.Unlimited := by
  rw [h.step_eq]
  exact ⟨hu.stack_eq, hu.calls_eq, hu.budget_eq, hu.sink⟩

theorem SameCall.mirrors (h : SameCall m₀ m₀' argc ip count) (hc : m₀.Calls d argc ip count)
    (hc' : m₀'.Calls d' argc ip count) :
    Mirrors (m₀.callBase d ip count) (m₀'.callBase d' ip count) m₀.step.machine m₀'.step.machine := by
  constructor
  case inner => exact ⟨_, _, hc.holds_step h.unlimited, hc'.holds_step h.unlimited'⟩
  case program_eq =>
    rw [hc.step_eq, hc'.step_eq]
    exact h.program_eq
  case policy_eq =>
    rw [hc.step_eq, hc'.step_eq]
    exact h.policy_eq
  case ip_eq =>
    rw [hc.step_eq, hc'.step_eq]
    rfl
  case state_eq =>
    rw [hc.step_eq, hc'.step_eq]
    exact (decodes_of_next? hc'.next_eq).running.trans (decodes_of_next? hc.next_eq).running.symm
  case unlimited => exact hc.unlimited_step h.unlimited
  case unlimited' => exact hc'.unlimited_step h.unlimited'

theorem Mirrors.sameActivation (h : Mirrors (m₀.callBase d ip count) (m₀'.callBase d' ip count) m m')
    (ha : m.stack.Addressable) (ha' : m'.stack.Addressable)
    (hexecuted : ∃ k, m.executed = m₀.executed + k ∧ m'.executed = m₀'.executed + k) :
    SameActivation m₀ m₀' m m' := by
  have hlen := length_callBase m₀ d ip count
  have hlen' := length_callBase m₀' d' ip count
  obtain ⟨s, frames, hs, hs'⟩ := h.inner
  have hfp : m.fp = m₀.calleeFp + height frames := by
    rw [hs.frame.fp_eq, length_stacked, hlen]
  have hfp' : m'.fp = m₀'.calleeFp + height frames := by
    rw [hs'.frame.fp_eq, length_stacked, hlen']
  constructor
  case ip_eq => exact h.ip_eq
  case state_eq => exact h.state_eq
  case executed => exact hexecuted
  case depth =>
    refine ⟨s.depth + height frames, ?_, ?_⟩
    · rw [hs.frame.depth_eq, hfp]
      omega
    · rw [hs'.frame.depth_eq, hfp']
      omega
  case fp => exact ⟨height frames, hfp, hfp'⟩
  case slots =>
    rw [← hlen, ← hlen']
    exact h.slots (Nat.lt_of_le_of_lt hs.fp_le ha) (Nat.lt_of_le_of_lt hs'.fp_le ha')

theorem Mirrors.callDepth_lt (h : Mirrors b (m₀'.callBase d' ip count) m m') :
    m₀'.callDepth < m'.callDepth := by
  obtain ⟨s, frames, -, hs'⟩ := h.inner
  rw [callDepth, callDepth, m'.returns.height_eq, hs'.returns_eq, List.length_append, callBase, List.length_cons,
    ← m₀'.returns.height_eq]
  omega

/-- What a call does depends on its arguments and on nothing else of its caller: as long as it has not returned
and takes its values from its own frames, another call of the same code with the same arguments does the same. -/
theorem call_independent_of_context (h : SameCall m₀ m₀' argc ip count) (hstays : m₀.StaysInCall n)
    (ha : ∀ j ≤ n, (m₀.step.machine.after j).stack.Addressable)
    (ha' : ∀ j ≤ n, (m₀'.step.machine.after j).stack.Addressable) :
    m₀'.StaysInCall n
      ∧ (∀ j ≤ n, SameActivation m₀ m₀' (m₀.step.machine.after j) (m₀'.step.machine.after j))
      ∧ ∀ j < n, SameOutput (m₀.step.machine.after j) (m₀'.step.machine.after j) := by
  obtain ⟨d, hc⟩ := h.calls
  obtain ⟨d', hc'⟩ := h.calls'
  have hdepth : (m₀.callBase d ip count).rest.length = m₀.callDepth + 1 := by
    rw [callBase, List.length_cons, ← m₀.returns.height_eq]
    rfl
  have halike : ∀ j ≤ n, AlikeAfter (m₀.callBase d ip count) (m₀'.callBase d' ip count) m₀.step.machine
      m₀'.step.machine j := by
    intro j hj
    refine (h.mirrors hc hc').after hc.calledWith (h.args_eq ▸ hc'.calledWith) (fun i hi => ?_)
      (fun i hi => hstays.takes i (Nat.lt_of_lt_of_le hi hj)) (fun i hi => ha i (Nat.le_trans hi hj))
      fun i hi => ha' i (Nat.le_trans hi hj)
    rw [hdepth]
    exact hstays.live i (Nat.le_trans hi hj)
  refine ⟨⟨fun j hj => ?_, fun j hj => ?_⟩, fun j hj => ?_, (halike n (Nat.le_refl n)).output⟩
  · exact (halike j hj).mirrors.callDepth_lt
  · exact (halike j (Nat.le_of_lt hj)).mirrors.takesFromFrame (hstays.takes j hj)
  · refine (halike j hj).mirrors.sameActivation (ha j hj) (ha' j hj) ?_
    obtain ⟨k, hk, hk'⟩ := (halike j hj).executed
    refine ⟨k + 1, ?_, ?_⟩
    · rw [hk, hc.step_eq]
      change m₀.executed + 1 + k = _
      omega
    · rw [hk', hc'.step_eq]
      change m₀'.executed + 1 + k = _
      omega

/-- A callee that makes a call of its own, called from the bottom of one stack and from the middle of another. -/
theorem call_independent_of_context_nested :
    ∃ m₀ m₀', SameCall m₀ m₀' 1 4 1 ∧ m₀.StaysInCall 1
      ∧ m₀.stack.toList = [.int 5] ∧ m₀'.stack.toList = [.null, .null, .int 5] ∧ m₀'.fp = m₀.fp + 1
      ∧ (m₀.step.machine.after 1).fp = m₀.calleeFp + 2
      ∧ m₀'.StaysInCall 1
      ∧ (∀ j ≤ 1, SameActivation m₀ m₀' (m₀.step.machine.after j) (m₀'.step.machine.after j))
      ∧ ∀ j < 1, SameOutput (m₀.step.machine.after j) (m₀'.step.machine.after j) := by
  let code : Array Word := #[Opcode.call.word, 4, 1, Opcode.halt.word, Opcode.call.word, 8, 0, Opcode.ret.word,
    Opcode.iconst1.word, Opcode.clear.word]
  let m₀ : Machine := { Machine.start ⟨code, .empty, .empty, .empty⟩ .unlimited with stack := ⟨.ofList [.int 5], 0⟩ }
  let m₀' : Machine := { m₀ with
    stack := ⟨.ofList [.null, .null, .int 5], 0⟩, fp := 1, returns := .ofList [3], executed := 7 }
  let d : Decoded := ⟨.call, 4, 1, 3⟩
  let d₁ : Decoded := ⟨.call, 8, 0, 7⟩
  -- the next steps of any machine of this program without limits
  have hnext : ∀ m : Machine, m.program = m₀.program → m.config = m₀.config → m.state = .running →
      (m.ip = 0 → m.next? = some d) ∧ (m.ip = 4 → m.next? = some d₁) := by
    intro m hprogram hconfig hstate
    constructor <;> intro hip <;>
      simp [next?, hprogram, hconfig, hstate, hip, m₀, code, d, d₁, Machine.start, decode, isBudgetExhausted,
        Config.default, Except.toOption, Opcode.arity]
  have hcalls : m₀.Calls d 1 4 1 :=
    ⟨(hnext m₀ rfl rfl rfl).1 rfl, of_decide_eq_true rfl, 4, rfl, rfl⟩
  have hcalls' : m₀'.Calls d 1 4 1 :=
    ⟨(hnext m₀' rfl rfl rfl).1 rfl, of_decide_eq_true rfl, 4, rfl, rfl⟩
  let m₁ := (m₀.fetch d).enter 4 1
  let m₁' := (m₀'.fetch d).enter 4 1
  have hn₁ : m₁.next? = some d₁ := (hnext m₁ rfl rfl rfl).2 rfl
  have hn₁' : m₁'.next? = some d₁ := (hnext m₁' rfl rfl rfl).2 rfl
  have hm₁ : m₀.step.machine = m₁ := hcalls.step_eq
  have hm₁' : m₀'.step.machine = m₁' := hcalls'.step_eq
  have hm₂ : m₁.after 1 = (m₁.fetch d₁).enter 8 0 := by
    rw [after_succ]
    change m₁.step.machine = _
    rw [step_of_next? hn₁]
    rfl
  have hm₂' : m₁'.after 1 = (m₁'.fetch d₁).enter 8 0 := by
    rw [after_succ]
    change m₁'.step.machine = _
    rw [step_of_next? hn₁']
    rfl
  have hsame : SameCall m₀ m₀' 1 4 1 :=
    ⟨⟨d, hcalls⟩, ⟨d, hcalls'⟩, rfl, rfl, rfl, ⟨rfl, rfl, rfl, Sink.neverFails_unlimited⟩,
      ⟨rfl, rfl, rfl, Sink.neverFails_unlimited⟩⟩
  have hle : ∀ j ≤ 1, j = 0 ∨ j = 1 := fun j hj => Nat.le_one_iff_eq_zero_or_eq_one.1 hj
  have hstays : m₀.StaysInCall 1 := by
    constructor
    · intro j hj
      rw [hm₁]
      rcases hle j hj with rfl | rfl
      · exact of_decide_eq_true rfl
      · rw [hm₂]
        exact of_decide_eq_true rfl
    · intro j hj
      rw [Nat.lt_one_iff.1 hj, hm₁]
      intro d' hd' hkeeps
      have heq : some d' = some d₁ := hd'.symm.trans hn₁
      cases heq
      cases hkeeps
  refine ⟨m₀, m₀', hsame, hstays, rfl, rfl, rfl, by rw [hm₁, hm₂]; rfl,
    call_independent_of_context hsame hstays (fun j hj => ?_) fun j hj => ?_⟩
  · rw [hm₁]
    rcases hle j hj with rfl | rfl
    · exact of_decide_eq_true rfl
    · rw [hm₂]
      exact of_decide_eq_true rfl
  · rw [hm₁']
    rcases hle j hj with rfl | rfl
    · exact of_decide_eq_true rfl
    · rw [hm₂']
      exact of_decide_eq_true rfl

end Machine

end StackMachine

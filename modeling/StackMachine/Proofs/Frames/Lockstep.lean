import StackMachine.Proofs.Frames.Alike
import StackMachine.Proofs.Machine.Limits

/-!
Steps of two machines with the same frames on different stacks.  As long as the first one takes its values from
the current frame and does not return from the lowest of these frames, both do the same: they go to the same
address, write the same text or report the same fault, and have the same frames again.
-/

set_option autoImplicit false

namespace StackMachine.Machine

variable {m m' m₁ m₁' : Machine} {b b' : Base} {args : List Value} {start : Nat} {cause : Cause}
  {before before' : List Notice}

/-! ## Faults -/

/-- Two reports of one fault: they differ in the count of faults and in the stack that they show. -/
def SameReport (r r' : Report) : Prop := r' = { r with count := r'.count, stack := r'.stack }

theorem sameReport_reportOf (hprogram : m'.program = m.program)
    (hpolicy : m'.reporter.fatalTypeMismatch = m.reporter.fatalTypeMismatch) (start : Nat) (cause : Cause) :
    SameReport (m.reportOf start cause) (m'.reportOf start cause) := by
  have houtcome : m'.reporter.outcome cause.kind = m.reporter.outcome cause.kind := by
    rw [Reporter.outcome, Reporter.outcome, hpolicy]
  rw [SameReport, reportOf, reportOf, hprogram]
  exact congrArg (fun outcome => { (m'.reporter.report cause.fault start m.program.code m'.stack).1 with outcome })
    houtcome

/-! ## One step -/

/-- The instruction of the next step takes the values that it pops, copies or reorders from the current frame.
Calls and returns check this themselves, and an instruction that may go on outside the code takes none. -/
def TakesFromFrame (m : Machine) : Prop :=
  ∀ d, m.next? = some d → d.instruction.keepsFrame = true → (m.fetch d).TargetsInCode d.instruction →
    d.instruction.reach ≤ m.stack.depth - m.fp

/-- What the next steps of two machines do to the output: both write the same text, or both report the same
fault. -/
inductive SameOutput (m m' : Machine) : Prop
  | wrote (text : ByteString) (h : m.step.reports = []) (h' : m'.step.reports = [])
    (hw : m.step.machine.sink.written = m.sink.written ++ text)
    (hw' : m'.step.machine.sink.written = m'.sink.written ++ text)
  | reported (r r' : Report) (h : m.step.reports = [r]) (h' : m'.step.reports = [r'])
    (hsame : SameReport r r')
    (hw : m.step.machine.sink.written = m.sink.written ++ ByteString.ofString r.display)
    (hw' : m'.step.machine.sink.written = m'.sink.written ++ ByteString.ofString r'.display)

/-- The next steps of two machines with the same frames leave them with the same frames. -/
structure StepsAlike (b b' : Base) (m m' : Machine) : Prop where
  mirrors : Mirrors b b' m.step.machine m'.step.machine
  executed : ∃ k, m.step.machine.executed = m.executed + k ∧ m'.step.machine.executed = m'.executed + k
  output : SameOutput m m'

theorem Unlimited.isBudgetExhausted_eq (h : m.Unlimited) : m.isBudgetExhausted = false := by
  rw [isBudgetExhausted, h.budget_eq]
  rfl

theorem Mirrors.next?_eq (h : Mirrors b b' m m') : m'.next? = m.next? := by
  rw [next?, next?, h.program_eq, h.ip_eq, h.state_eq, h.unlimited.isBudgetExhausted_eq,
    h.unlimited'.isBudgetExhausted_eq]

theorem Mirrors.of_writes (h : Mirrors b b' m m') {text : ByteString} (hw : m.Writes m₁ text)
    (hw' : m'.Writes m₁' text) (inner : ∃ s frames, m₁.Holds b s frames ∧ m₁'.Holds b' s frames)
    (hip : m₁'.ip = m₁.ip) (hstate : m₁'.state = m₁.state) : Mirrors b b' m₁ m₁' := by
  obtain ⟨s, frames, ha, ha'⟩ := inner
  constructor
  case inner => exact ⟨s, frames, ha, ha'⟩
  case program_eq => rw [hw.program_eq, hw'.program_eq, h.program_eq]
  case policy_eq => rw [hw.reporter_eq, hw'.reporter_eq, h.policy_eq]
  case ip_eq => exact hip
  case state_eq => exact hstate
  case unlimited =>
    exact ⟨ha.limit_eq, hw.config_eq ▸ h.unlimited.calls_eq, hw.config_eq ▸ h.unlimited.budget_eq, hw.sink⟩
  case unlimited' =>
    exact ⟨ha'.limit_eq, hw'.config_eq ▸ h.unlimited'.calls_eq, hw'.config_eq ▸ h.unlimited'.budget_eq, hw'.sink⟩

/-- The machines with other counters, in another place or state. -/
theorem Mirrors.moved (h : Mirrors b b' m m') {ip ip' : Nat} {state state' : RunState} {executed executed' : Nat}
    {reporter reporter' : Reporter} {sink sink' : Sink} (hip : ip' = ip) (hstate : state' = state)
    (hpolicy : reporter'.fatalTypeMismatch = reporter.fatalTypeMismatch) (hsink : sink.NeverFails)
    (hsink' : sink'.NeverFails) :
    Mirrors b b' { m with ip, state, executed, reporter, sink }
      { m' with ip := ip', state := state', executed := executed', reporter := reporter', sink := sink' } := by
  obtain ⟨s, frames, ha, ha'⟩ := h.inner
  constructor
  case inner =>
    exact ⟨s, frames, ha.of_stack ha.frame.stack_eq ha.frame.limit_eq rfl rfl,
      ha'.of_stack ha'.frame.stack_eq ha'.frame.limit_eq rfl rfl⟩
  case program_eq => exact h.program_eq
  case policy_eq => exact hpolicy
  case ip_eq => exact hip
  case state_eq => exact hstate
  case unlimited => exact ⟨h.unlimited.stack_eq, h.unlimited.calls_eq, h.unlimited.budget_eq, hsink⟩
  case unlimited' => exact ⟨h.unlimited'.stack_eq, h.unlimited'.calls_eq, h.unlimited'.budget_eq, hsink'⟩

theorem Mirrors.fetch (h : Mirrors b b' m m') (d : Decoded) : Mirrors b b' (m.fetch d) (m'.fetch d) :=
  h.moved rfl h.state_eq h.policy_eq h.unlimited.sink h.unlimited'.sink

theorem Mirrors.raise (h : Mirrors b b' m m') (start : Nat) (cause : Cause) (before before' : List Notice) :
    Mirrors b b' (m.raise start cause before).machine (m'.raise start cause before').machine := by
  have hsink := h.unlimited.sink
  have hsink' := h.unlimited'.sink
  have hstops : m'.stopsAt start cause = m.stopsAt start cause := by
    rw [stopsAt_of_neverFails hsink, stopsAt_of_neverFails hsink', isFatal_reportOf, isFatal_reportOf, h.policy_eq]
  rw [raise_machine, raise_machine]
  exact h.moved h.ip_eq (by rw [hstops, h.state_eq]) h.policy_eq (neverFails_delivery hsink start cause)
    (neverFails_delivery hsink' start cause)

/-- Steps that neither execute anything nor write. -/
theorem Mirrors.stepsAlike_quiet (h : Mirrors b b' m₁ m₁') {notices notices' : List Notice}
    {result result' : Except MachineError RunState} (hstep : m.step = ⟨m₁, notices, result⟩)
    (hstep' : m'.step = ⟨m₁', notices', result'⟩) (hb : notices.filterMap Notice.report? = [])
    (hb' : notices'.filterMap Notice.report? = []) (hsink : m₁.sink = m.sink) (hsink' : m₁'.sink = m'.sink)
    (hexecuted : m₁.executed = m.executed) (hexecuted' : m₁'.executed = m'.executed) : StepsAlike b b' m m' := by
  constructor
  case mirrors =>
    rw [hstep, hstep']
    exact h
  case executed =>
    rw [hstep, hstep']
    exact ⟨0, hexecuted, hexecuted'⟩
  case output =>
    refine .wrote .empty (by rw [hstep]; exact hb) (by rw [hstep']; exact hb') ?_ ?_
    · rw [hstep, ByteString.append_empty, ← hsink]
    · rw [hstep', ByteString.append_empty, ← hsink']

/-- Steps that raise the same fault of two machines. -/
theorem Mirrors.stepsAlike_raise (h : Mirrors b b' m₁ m₁') (hstep : m.step = m₁.raise start cause before)
    (hstep' : m'.step = m₁'.raise start cause before') (hb : before.filterMap Notice.report? = [])
    (hb' : before'.filterMap Notice.report? = []) (hsink : m₁.sink = m.sink) (hsink' : m₁'.sink = m'.sink)
    (hexecuted : m₁.executed = m.executed + 1) (hexecuted' : m₁'.executed = m'.executed + 1) :
    StepsAlike b b' m m' := by
  constructor
  case mirrors =>
    rw [hstep, hstep']
    exact h.raise start cause before before'
  case executed =>
    rw [hstep, hstep', raise_machine, raise_machine]
    exact ⟨1, hexecuted, hexecuted'⟩
  case output =>
    refine .reported _ _ (by rw [hstep, reports_raise hb]) (by rw [hstep', reports_raise hb'])
      (sameReport_reportOf h.program_eq h.policy_eq start cause) ?_ ?_
    · rw [hstep, raise_machine, ← hsink]
      exact written_delivery h.unlimited.sink start cause
    · rw [hstep', raise_machine, ← hsink']
      exact written_delivery h.unlimited'.sink start cause

/-- Steps that execute the same instruction on two machines. -/
theorem Mirrors.stepsAlike_of_alike (h : Mirrors b b' m m') {d : Decoded} (hn : m.next? = some d)
    (ha : Alike b b' (m.fetch d) (m'.fetch d) ((m.fetch d).execute m.ip d.instruction)
      ((m'.fetch d).execute m.ip d.instruction)) :
    StepsAlike b b' m m' ∨ m.step.machine.callDepth < b.rest.length := by
  have hstep := step_of_next? hn
  have hstep' := step_of_next? (h.next?_eq.trans hn)
  rw [h.ip_eq] at hstep'
  obtain ⟨s, frames, hs, hs'⟩ := h.inner
  have hexecutes := executes (m := m.fetch d) hs.frame.fits m.ip d.instruction
  have hexecutes' := executes (m := m'.fetch d) hs'.frame.fits m.ip d.instruction
  generalize (m.fetch d).execute m.ip d.instruction = e at ha hstep hexecutes
  generalize (m'.fetch d).execute m.ip d.instruction = e' at ha hstep' hexecutes'
  cases ha with
  | refused cause =>
    refine .inl ((h.fetch d).stepsAlike_raise hstep hstep' ?_ ?_ rfl rfl rfl rfl) <;>
      exact (List.append_nil _).symm ▸ reports_announce _ _
  | went text ht ht' hw hw' inner hip hstate =>
    obtain ⟨hm, hquiet⟩ := step_of_untrapped hstep hexecutes ht
    obtain ⟨hm', hquiet'⟩ := step_of_untrapped hstep' hexecutes' ht'
    refine .inl ⟨?_, ?_, .wrote text hquiet hquiet' ?_ ?_⟩
    · rw [hm, hm']
      exact (h.fetch d).of_writes hw hw' inner hip hstate
    · rw [hm, hm']
      exact ⟨1, hw.executed_eq, hw'.executed_eq⟩
    · rw [hm, hw.written_eq]
      rfl
    · rw [hm', hw'.written_eq]
      rfl
  | returned hreturned =>
    obtain ⟨count, sink, state, hsettle⟩ := settle_machine m.ip (m.announce d.op) e
    rw [hstep, hsettle]
    exact .inr hreturned

/-- Two machines with the same frames go on alike, unless the callee returns. -/
theorem Mirrors.step (h : Mirrors b b' m m') (hb : b.CalledWith args) (hb' : b'.CalledWith args)
    (ha : m.stack.Addressable) (ha' : m'.stack.Addressable) (htakes : m.TakesFromFrame) :
    StepsAlike b b' m m' ∨ m.step.machine.callDepth < b.rest.length := by
  by_cases hr : m.state = .running
  · have hr' : m'.state = .running := h.state_eq.trans hr
    have hcode : m'.program.code[m'.ip]? = m.program.code[m.ip]? := by
      rw [h.program_eq, h.ip_eq]
    cases hip : m.program.code[m.ip]? with
    | none =>
      rw [hip] at hcode
      have hended : Mirrors b b' { m with state := .halted } { m' with state := .halted } :=
        h.moved h.ip_eq rfl h.policy_eq h.unlimited.sink h.unlimited'.sink
      exact .inl (hended.stepsAlike_quiet (step_of_end hr hip) (step_of_end hr' hcode) rfl rfl rfl rfl rfl rfl)
    | some word =>
      rw [hip] at hcode
      have hbudget := h.unlimited.isBudgetExhausted_eq
      have hbudget' := h.unlimited'.isBudgetExhausted_eq
      cases hd : decode m.program.code m.ip word with
      | error cause =>
        have hstep := step_of_decode_error hr hip hbudget hd
        have hd' : decode m'.program.code m'.ip word = .error cause := by
          rw [h.program_eq, h.ip_eq, hd]
        have hstep' : m'.step = { m' with executed := m'.executed + 1 }.raise m.ip cause [] := by
          rw [step_of_decode_error hr' hcode hbudget' hd', h.ip_eq]
        have hmoved : Mirrors b b' { m with executed := m.executed + 1 } { m' with executed := m'.executed + 1 } :=
          h.moved h.ip_eq h.state_eq h.policy_eq h.unlimited.sink h.unlimited'.sink
        exact .inl (hmoved.stepsAlike_raise hstep hstep' rfl rfl rfl rfl rfl rfl)
      | ok d =>
        have hn := next?_eq_some hr hip hbudget hd
        obtain ⟨s, frames, hs, hs'⟩ := h.inner
        have hfp : m.fp < 2 ^ 63 := Nat.lt_of_le_of_lt hs.fp_le ha
        have hfp' : m'.fp < 2 ^ 63 := Nat.lt_of_le_of_lt hs'.fp_le ha'
        exact h.stepsAlike_of_alike hn
          ((h.fetch d).execute_alike hb hb' hfp hfp' m.ip d.instruction (htakes d hn))
  · have hr' : m'.state ≠ .running := by
      rw [h.state_eq]
      exact hr
    exact .inl (h.stepsAlike_quiet (step_of_stopped hr) (step_of_stopped hr') rfl rfl rfl rfl rfl rfl)

/-! ## Runs -/

/-- Two machines have done the same in `n` steps and have the same frames. -/
structure AlikeAfter (b b' : Base) (m m' : Machine) (n : Nat) : Prop where
  mirrors : Mirrors b b' (m.after n) (m'.after n)
  executed : ∃ k, (m.after n).executed = m.executed + k ∧ (m'.after n).executed = m'.executed + k
  output : ∀ j < n, SameOutput (m.after j) (m'.after j)

/-- Two machines with the same frames go on alike until the callee of the first one returns. -/
theorem Mirrors.after (h : Mirrors b b' m m') (hb : b.CalledWith args) (hb' : b'.CalledWith args) {n : Nat}
    (hlive : ∀ j ≤ n, b.rest.length ≤ (m.after j).callDepth)
    (htakes : ∀ j < n, (m.after j).TakesFromFrame) (ha : ∀ j ≤ n, (m.after j).stack.Addressable)
    (ha' : ∀ j ≤ n, (m'.after j).stack.Addressable) : AlikeAfter b b' m m' n := by
  induction n with
  | zero => exact ⟨h, ⟨0, rfl, rfl⟩, nofun⟩
  | succ n ih =>
    have hn := Nat.le_succ n
    have hafter := ih (fun j hj => hlive j (Nat.le_trans hj hn)) (fun j hj => htakes j (Nat.lt_succ_of_lt hj))
      (fun j hj => ha j (Nat.le_trans hj hn)) fun j hj => ha' j (Nat.le_trans hj hn)
    obtain ⟨k, hk, hk'⟩ := hafter.executed
    have hlast := hlive (n + 1) (Nat.le_refl _)
    rw [after_succ] at hlast
    rcases hafter.mirrors.step hb hb' (ha n hn) (ha' n hn) (htakes n (Nat.lt_succ_self n)) with hstep | hreturned
    · obtain ⟨i, hi, hi'⟩ := hstep.executed
      refine ⟨?_, ⟨k + i, ?_, ?_⟩, fun j hj => ?_⟩
      · rw [after_succ, after_succ]
        exact hstep.mirrors
      · rw [after_succ, hi, hk, Nat.add_assoc]
      · rw [after_succ, hi', hk', Nat.add_assoc]
      · rcases Nat.lt_or_eq_of_le (Nat.le_of_lt_succ hj) with hlt | rfl
        · exact hafter.output j hlt
        · exact hstep.output
    · exact absurd hreturned (Nat.not_lt.2 hlast)

/-- The second of two machines takes its values from the current frame if the first one does. -/
theorem Mirrors.takesFromFrame (h : Mirrors b b' m m') (htakes : m.TakesFromFrame) : m'.TakesFromFrame := by
  obtain ⟨s, frames, hs, hs'⟩ := h.inner
  intro d hn hi htargets
  have hjump := jumpTarget_of_program_eq (h.fetch d).program_eq
  have hreach := htakes d (h.next?_eq ▸ hn) hi fun target hmem => hjump target ▸ htargets target hmem
  rw [hs.frame.depth_eq, Nat.add_sub_cancel] at hreach
  rw [hs'.frame.depth_eq, Nat.add_sub_cancel]
  exact hreach

end StackMachine.Machine

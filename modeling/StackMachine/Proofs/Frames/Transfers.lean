import StackMachine.Proofs.Frames.Matching
import StackMachine.Proofs.Machine.Consistent

/-!
What a step does to the active calls.  A call records the address behind it, a frame that is left for another
one takes the latest such address away and goes on there, and no other step touches them.
-/

set_option autoImplicit false

namespace StackMachine

namespace Machine

variable {m m' : Machine} {d : Decoded} {i : Instruction}

theorem keepsFrame_of_isSome
    (h : (m.computed? i).isSome ∨ (m.written? i).isSome ∨ (m.destination? i).isSome) :
    i.keepsFrame = true := by
  cases i with
  | call | leave => simp [computed?, written?, destination?] at h
  | _ => rfl

/-! ## The transfer of a step -/

/-- What the next step does to the active calls, if it executes a call or leaves a frame for another one. -/
def transfer? (m : Machine) : Option Transfer :=
  match m.next?, m.step.reports with
  | some d, [] =>
    match d.instruction with
    | .call .. => some (.call d.next)
    | .leave _ =>
      if m.step.machine.state = .running then some (.resume m.step.machine.ip) else none
    | _ => none
  | _, _ => none

theorem transfer?_of_next? (h : m.next? = none) : m.transfer? = none := by
  rw [transfer?, h]

theorem transfer?_of_reports (h : m.step.reports ≠ []) : m.transfer? = none := by
  rw [transfer?]
  split
  · next hr => exact absurd hr h
  · rfl

theorem transfer?_eq (hn : m.next? = some d) (hreports : m.step.reports = []) :
    m.transfer? = match d.instruction with
      | .call .. => some (.call d.next)
      | .leave _ =>
        if m.step.machine.state = .running then some (.resume m.step.machine.ip) else none
      | _ => none := by
  rw [transfer?, hn, hreports]

theorem transfer?_of_keepsFrame (hn : m.next? = some d) (h : d.instruction.keepsFrame = true) :
    m.transfer? = none := by
  rw [transfer?, hn]
  split
  · next hd _ =>
    cases hd
    split
    · next hi => rw [hi] at h; cases h
    · next hi => rw [hi] at h; cases h
    · rfl
  · rfl

/-- A frame that is left for another one: the machine goes on behind the latest pending call, which is
forgotten, on a stack that is less deep and reaches up to the frame, and to a result above it. -/
structure Resumes (m m' : Machine) (withResult : Bool) : Prop where
  latest : ∃ pending, m.returns.toList = pending ++ [m'.ip] ∧ m'.returns.toList = pending
  depth_lt : m'.stack.depth < m.stack.depth
  fp_le : m'.fp + (if withResult then 1 else 0) ≤ m'.stack.depth

/-- A frame with a link lies on the stack. -/
theorem fp_le_of_resume {base : Nat} {next : Nat × Nat} (h : m.frameExit = .ok ⟨base, some next⟩) :
    2 ≤ m.fp ∧ m.fp ≤ m.stack.depth := by
  by_cases hfp : m.fp < 2
  · rw [frameExit_of_lt hfp] at h
    cases h
  · obtain ⟨link, argc, hl⟩ := linked_of_frameExit h (Nat.not_lt.1 hfp)
    have hlink := hl.link_eq
    rw [OperandStack.get?_eq_getElem?] at hlink
    obtain ⟨hlt, -⟩ := List.getElem?_eq_some_iff.1 hlink
    rw [OperandStack.length_toList] at hlt
    omega

theorem length_frameResult {withResult : Bool} {result : Option Value}
    (h : m.frameResult withResult = .ok result) :
    result.toList.length = if withResult then 1 else 0 := by
  cases withResult with
  | false => cases h; rfl
  | true =>
    obtain ⟨-, v, -, rfl⟩ := frameResult_true_eq_ok.1 h
    rfl

theorem resumes_of_frameExit {withResult : Bool} {result : Option Value} {base fp ip : Nat}
    (hr : m.frameResult withResult = .ok result) (he : m.frameExit = .ok ⟨base, some (fp, ip)⟩)
    (hstack : m'.stack = m.cut base result) (hreturns : m'.returns = m.returns.tail) (hfp : m'.fp = fp)
    (hip : m'.ip = ip) : m.Resumes m' withResult := by
  obtain ⟨hcaller, rest, hrest⟩ := frameExit_resume he
  obtain ⟨htwo, hle⟩ := fp_le_of_resume he
  have hbase : base ≤ m.fp - 2 := frameExit_base_le he
  have hdepth : m'.stack.depth = base + if withResult then 1 else 0 := by
    rw [hstack, depth_cut, length_frameResult hr, Nat.min_eq_right (by omega)]
  have hlist : m.returns.toList = rest.reverse ++ [ip] := by
    rw [Pile.toList, hrest, List.reverse_cons]
  constructor
  case latest =>
    refine ⟨rest.reverse, hip ▸ hlist, ?_⟩
    rw [hreturns, Pile.toList_tail, hlist, List.dropLast_concat]
  case depth_lt =>
    rw [hdepth]
    split <;> omega
  case fp_le =>
    rw [hdepth, hfp]
    omega

/-! ## All steps -/

/-- A step that gets to no instruction stops the machine where it is. -/
theorem step_of_next?_eq_none (hn : m.next? = none) :
    m.step.machine.state ≠ .running ∧ m.step.machine.ip = m.ip ∧ m.step.machine.returns = m.returns
      ∧ (m.step.machine.executed = m.executed ∨
        m.step.machine.executed = m.executed + 1 ∧ m.state = .running ∧ m.ip < m.program.code.size) := by
  have hstops : ∀ {m : Machine} {start : Nat} {cause : Cause}, cause.kind.isRecoverable = false →
      m.stopsAt start cause = true := by
    intro m start cause hkind
    rw [stopsAt, isFatal_reportOf, hkind]
    exact Bool.or_true _
  have hstopped : RunState.faulted ≠ .running := of_decide_eq_true rfl
  have h := steps m
  generalize m.step = r at h
  cases h with
  | stopped hr => exact ⟨hr, rfl, rfl, .inl rfl⟩
  | ended => exact ⟨of_decide_eq_true rfl, rfl, rfl, .inl rfl⟩
  | exhausted =>
    rw [raise_machine, hstops rfl]
    exact ⟨hstopped, rfl, rfl, .inl rfl⟩
  | undecoded hr hip _ hd =>
    obtain ⟨hlt, -⟩ := Array.getElem?_eq_some_iff.1 hip
    rw [raise_machine, hstops (by rcases decode_eq_error hd with ⟨-, rfl⟩ | ⟨op, -, -, rfl⟩ <;> rfl)]
    exact ⟨hstopped, rfl, rfl, .inr ⟨rfl, hr, hlt⟩⟩
  | performed hn' => cases hn.symm.trans hn'

/-- What the step of the instruction `d` does to the return addresses, and where it goes on. -/
inductive Transfers (m : Machine) (d : Decoded) (m' : Machine) : Prop
  | keeps (h : m.transfer? = none) (hreturns : m'.returns = m.returns)
    (hip : m'.ip = d.next ∨ ∃ target ∈ d.instruction.targets, m.jumpTarget target = .ok m'.ip)
  | calls {target argc : Word} (hi : d.instruction = .call target argc)
    (h : m.transfer? = some (.call d.next)) (hreturns : m'.returns = m.returns.push d.next)
    (hip : m.jumpTarget target = .ok m'.ip)
  | resumes {withResult : Bool} (h : m.transfer? = some (.resume m'.ip))
    (hresumes : m.Resumes m' withResult)

/-- A frame that is left without a fault is left for another one, or the machine halts. -/
theorem leaves_of_next? (fits : m.stack.Fits) (hn : m.next? = some d) {withResult : Bool}
    (hi : d.instruction = .leave withResult) (hreports : m.step.reports = []) :
    (m.step.machine.state = .running ∧ m.Resumes m.step.machine withResult) ∨
      m.step.machine.state = .halted ∧ m.step.machine.returns = m.returns := by
  have hstep := step_of_next? hn
  have he := executes (m := m.fetch d) fits m.ip d.instruction
  rw [hi] at hstep he
  generalize (m.fetch d).execute m.ip (.leave withResult) = e at hstep he
  cases he with
  | refused =>
    rw [hstep] at hreports
    change (Machine.raise _ _ _ _).reports = [] at hreports
    rw [reports_raise (by rw [List.filterMap_append, reports_announce]; rfl)] at hreports
    cases hreports
  | unwritten h | written h | computed h | went h => cases h
  | halted h | called h => cases h
  | @resumed withResult result base fp ip h hr he =>
    cases h
    have hm : m.step.machine =
        { m.fetch d with stack := (m.fetch d).cut base result, returns := m.returns.tail, fp, ip } := by
      rw [hstep]
      rfl
    have hresumes := resumes_of_frameExit hr he (congrArg stack hm) (congrArg returns hm)
      (congrArg Machine.fp hm) (congrArg Machine.ip hm)
    rw [hm] at hresumes ⊢
    exact .inl ⟨(decodes_of_next? hn).running, hresumes.latest, hresumes.depth_lt, hresumes.fp_le⟩
  | finished h =>
    rw [hstep]
    exact .inr ⟨rfl, rfl⟩

/-- An instruction that leaves the return addresses as they are. -/
theorem transfers_of_settle {e : Execution} (htransfer : m.transfer? = none)
    (hstep : m.step = settle m.ip (m.announce d.op) e) (hreturns : e.machine.returns = m.returns)
    (hip : e.machine.ip = d.next ∨
      ∃ target ∈ d.instruction.targets, m.jumpTarget target = .ok e.machine.ip) :
    m.Transfers d m.step.machine := by
  obtain ⟨count, sink, state, hm⟩ := settle_machine m.ip (m.announce d.op) e
  refine .keeps htransfer ?_ ?_ <;> rw [hstep, hm]
  · exact hreturns
  · exact hip

theorem step_transfers (fits : m.stack.Fits) (hn : m.next? = some d) : m.Transfers d m.step.machine := by
  have hstep := step_of_next? hn
  have he := executes (m := m.fetch d) fits m.ip d.instruction
  generalize hexec : (m.fetch d).execute m.ip d.instruction = e at hstep he
  have hquiet : (∀ cause, e.trap ≠ some (.fault cause)) → m.step.reports = [] := by
    rw [hstep]
    exact he.reports_settle
  cases he with
  | refused h =>
    have hreports := (step_of_fault hn hexec).2
    exact transfers_of_settle (transfer?_of_reports (by rw [hreports]; nofun)) hstep rfl (.inl rfl)
  | unwritten h | written h =>
    have hkeeps := keepsFrame_of_isSome (.inr (.inl (Option.isSome_of_eq_some h)))
    exact transfers_of_settle (transfer?_of_keepsFrame hn hkeeps) hstep rfl (.inl rfl)
  | computed h =>
    have hkeeps := keepsFrame_of_isSome (.inl (Option.isSome_of_eq_some h))
    exact transfers_of_settle (transfer?_of_keepsFrame hn hkeeps) hstep rfl (.inl rfl)
  | halted hi =>
    have htransfer := transfer?_of_keepsFrame hn (by rw [hi]; rfl)
    exact transfers_of_settle htransfer hstep rfl (.inl rfl)
  | went h =>
    have hkeeps := keepsFrame_of_isSome (.inr (.inr (Option.isSome_of_eq_some h)))
    exact transfers_of_settle (transfer?_of_keepsFrame hn hkeeps) hstep rfl (destination?_eq_ok h)
  | @called target argc ip count hi h =>
    have hm : m.step.machine = (m.fetch d).enter ip count := by
      rw [hstep]
      rfl
    have htransfer : m.transfer? = some (.call d.next) := by rw [transfer?_eq hn (hquiet nofun), hi]
    refine .calls hi htransfer ?_ ?_ <;> rw [hm]
    · rfl
    · exact (checkCall_eq_ok h).1
  | resumed hi =>
    rcases leaves_of_next? fits hn hi (hquiet nofun) with ⟨hrunning, hresumes⟩ | ⟨hhalted, -⟩
    · refine .resumes ?_ hresumes
      rw [transfer?_eq hn (hquiet nofun), hi]
      exact if_pos hrunning
    · rw [hstep] at hhalted
      cases (decodes_of_next? hn).running.symm.trans hhalted
  | finished hi =>
    have hhalted : m.step.machine.state ≠ .running := by
      rw [hstep]
      nofun
    have htransfer : m.transfer? = none := by
      rw [transfer?_eq hn (hquiet nofun), hi]
      exact if_neg hhalted
    exact transfers_of_settle htransfer hstep rfl (.inl rfl)

end Machine

end StackMachine

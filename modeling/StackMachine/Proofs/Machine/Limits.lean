import StackMachine.Machine.Run
import StackMachine.Proofs.Machine.Settings

/-!
Limits and policy only cut runs short.  A machine under a configuration does step by step what it does
without limits, until a step is refused for one of its limits or its policy makes a fault fatal.
-/

set_option autoImplicit false

namespace StackMachine.Machine

variable {m m₁ : Machine} {c : Config} {start : Nat} {cause : Cause} {before : List Notice}

/-! ## Raising a fault under another configuration -/

/-- What is written of a fault does not depend on the configuration. -/
theorem delivery_under : (m.under c).delivery start cause = m.delivery start cause := rfl

theorem stopsAt_under
    (h : cause.kind.isRecoverable = false ∨ m.reporter.fatalTypeMismatch = c.fatalTypeMismatch) :
    (m.under c).stopsAt start cause = m.stopsAt start cause := by
  rw [stopsAt, stopsAt, delivery_under, isFatal_reportOf, isFatal_reportOf]
  rcases h with hkind | hpolicy
  · rw [hkind]
    rfl
  · rw [hpolicy]
    rfl

theorem raise_under
    (h : cause.kind.isRecoverable = false ∨ m.reporter.fatalTypeMismatch = c.fatalTypeMismatch)
    (start : Nat) (before before' : List Notice) :
    ((m.under c).raise start cause before').machine = (m.raise start cause before).machine.under c := by
  rw [raise_machine, raise_machine, stopsAt_under h]
  rfl

/-! ## One step -/

/-- The next step of the machine under `c` is its last one: it raises a fatal fault for a limit or by the
policy, and changes neither the stack nor the frames. -/
structure CutShort (m : Machine) (c : Config) : Prop where
  report : ∃ report, (m.under c).step.reports = [report] ∧ report.isFatal = true
    ∧ (report.kind ∈ limitKinds ∨ c.fatalTypeMismatch = true ∧ report.kind = .typeMismatch
      ∧ (m.under c).step.machine.sink = m.step.machine.sink)
  state_eq : (m.under c).step.machine.state = .faulted
  values_eq : (m.under c).step.machine.stack.values = m.stack.values
  fp_eq : (m.under c).step.machine.fp = m.fp
  returns_eq : (m.under c).step.machine.returns = m.returns

theorem cutShort_of_raise (hstep : (m.under c).step = (m₁.under c).raise m.ip cause before)
    (hb : before.filterMap Notice.report? = [])
    (hm : m₁.stack = m.stack ∧ m₁.fp = m.fp ∧ m₁.returns = m.returns)
    (hkind : cause.kind ∈ limitKinds ∨ c.fatalTypeMismatch = true ∧ cause.kind = .typeMismatch
      ∧ (m₁.delivery m.ip cause).1 = m.step.machine.sink) : m.CutShort c := by
  have hfatal : ((m₁.under c).reportOf m.ip cause).isFatal = true := by
    rw [isFatal_reportOf]
    rcases hkind with hlimit | ⟨hpolicy, -, -⟩
    · have hnot : ∀ kind ∈ limitKinds, kind.isRecoverable = false := of_decide_eq_true rfl
      rw [hnot _ hlimit]
      rfl
    · change (!(_ && !c.fatalTypeMismatch)) = true
      rw [hpolicy, Bool.not_true, Bool.and_false, Bool.not_false]
  have hstops : (m₁.under c).stopsAt m.ip cause = true := by
    rw [stopsAt, hfatal, Bool.or_true]
  obtain ⟨hstack, hfp, hreturns⟩ := hm
  constructor
  case report =>
    refine ⟨_, by rw [hstep, reports_raise hb], hfatal, ?_⟩
    rcases hkind with hlimit | ⟨hpolicy, hmismatch, hsink⟩
    · exact .inl hlimit
    · rw [hstep, raise_machine]
      exact .inr ⟨hpolicy, hmismatch, hsink⟩
  case state_eq => rw [hstep, raise_machine, hstops]; rfl
  case values_eq => rw [hstep, raise_machine, ← hstack]; rfl
  case fp_eq => rw [hstep, raise_machine, ← hfp]; rfl
  case returns_eq => rw [hstep, raise_machine, ← hreturns]; rfl

theorem isBudgetExhausted_under (h : m.Looser c) (hb : (m.under c).isBudgetExhausted = false) :
    m.isBudgetExhausted = false := by
  change (decide (0 < c.maxInstructions) && decide (c.maxInstructions ≤ m.executed)) = false at hb
  rw [isBudgetExhausted]
  rcases h.budget with hzero | hsame
  · rw [hzero]
    rfl
  · rw [hsame]
    exact hb

/-- A refused instruction under another configuration: only the policy can make a difference. -/
theorem refused_under {d : Decoded} (h : m.Looser c)
    (hstep : m.step = (m.fetch d).raise m.ip cause (m.announce d.op ++ []))
    (hstep' : (m.under c).step =
      ((m.fetch d).under c).raise m.ip cause ((m.under c).announce d.op ++ [])) :
    (m.under c).step.machine = m.step.machine.under c ∨ ¬ m.SameLimits c ∧ m.CutShort c := by
  by_cases hpolicy : m.reporter.fatalTypeMismatch = c.fatalTypeMismatch
  · rw [hstep, hstep']
    exact .inl (raise_under (m := m.fetch d) (.inr hpolicy) _ _ _)
  · cases hkind : cause.kind.isRecoverable with
    | false =>
      rw [hstep, hstep']
      exact .inl (raise_under (m := m.fetch d) (.inl hkind) _ _ _)
    | true =>
      have hm : m.reporter.fatalTypeMismatch = false := h.policy.resolve_right hpolicy
      have hc : c.fatalTypeMismatch = true := by
        rw [hm] at hpolicy
        exact Bool.ne_false_iff.1 (Ne.symm hpolicy)
      refine .inr ⟨fun hlimits => hpolicy hlimits.policy, ?_⟩
      refine cutShort_of_raise hstep' ?_ ⟨rfl, rfl, rfl⟩ (.inr ⟨hc, kind_of_isRecoverable hkind, ?_⟩)
      · rw [List.append_nil, reports_announce]
      · rw [hstep, raise_machine]

/-- The end of a step under another configuration, if the instruction did the same. -/
theorem settle_under {d : Decoded} {e : Execution} (h : m.Looser c)
    (he : (m.fetch d).Executes m.ip d.instruction e)
    (hstep : m.step = settle m.ip (m.announce d.op) e)
    (hstep' : (m.under c).step = settle m.ip ((m.under c).announce d.op) (e.under c)) :
    (m.under c).step.machine = m.step.machine.under c ∨ ¬ m.SameLimits c ∧ m.CutShort c := by
  cases he with
  | refused => exact refused_under h hstep hstep'
  | _ =>
    rw [hstep, hstep']
    exact .inl rfl

/-- A step under a configuration is the step without it, or it is cut short. -/
theorem step_under (h : m.Looser c) (fits : (m.under c).stack.Fits) :
    (m.under c).step.machine = m.step.machine.under c ∨ ¬ m.SameLimits c ∧ m.CutShort c := by
  by_cases hr : m.state = .running
  · have hr' : (m.under c).state = .running := hr
    cases hip : m.program.code[m.ip]? with
    | none =>
      have hip' : (m.under c).program.code[(m.under c).ip]? = none := hip
      rw [step_of_end hr hip, step_of_end hr' hip']
      exact .inl rfl
    | some word =>
      have hip' : (m.under c).program.code[(m.under c).ip]? = some word := hip
      cases hb' : (m.under c).isBudgetExhausted with
      | true =>
        have hstep' := step_of_exhausted hr' hip' hb'
        by_cases hsame : m.config.maxInstructions = c.maxInstructions
        · have hb : m.isBudgetExhausted = true := by
            rw [isBudgetExhausted, hsame]
            exact hb'
          rw [hstep', step_of_exhausted hr hip hb, hsame]
          exact .inl (raise_under (.inl rfl) m.ip [] [])
        · refine .inr ⟨fun hlimits => hsame hlimits.budget, ?_⟩
          exact cutShort_of_raise hstep' rfl ⟨rfl, rfl, rfl⟩ (.inl (of_decide_eq_true rfl))
      | false =>
        have hb := isBudgetExhausted_under h hb'
        cases hd : decode m.program.code m.ip word with
        | error cause =>
          have hd' : decode (m.under c).program.code (m.under c).ip word = .error cause := hd
          rw [step_of_decode_error hr' hip' hb' hd', step_of_decode_error hr hip hb hd]
          refine .inl (raise_under (m := { m with executed := m.executed + 1 }) (.inl ?_) m.ip [] [])
          rcases decode_eq_error hd with ⟨-, rfl⟩ | ⟨op, -, -, rfl⟩ <;> rfl
        | ok d =>
          have hn := next?_eq_some hr hip hb hd
          have hn' : (m.under c).next? = some d := next?_eq_some hr' hip' hb' hd
          have hstep := step_of_next? hn
          have hstep' := step_of_next? hn'
          have he := executes (m := m.fetch d) (h.fits fits) m.ip d.instruction
          have hlooser : (m.fetch d).Looser c := ⟨h.stack, h.calls, h.budget, h.policy⟩
          rcases execute_under hlooser fits m.ip d.instruction with hsame | ⟨cause, hover, hfault⟩
          · change (m.under c).step =
              settle m.ip _ (((m.fetch d).under c).execute m.ip d.instruction) at hstep'
            rw [hsame] at hstep'
            exact settle_under h he hstep hstep'
          · have hnot : ¬ m.SameLimits c := fun hlimits =>
              hover.not_same ⟨hlimits.stack, hlimits.calls, hlimits.budget, hlimits.policy⟩
            refine .inr ⟨hnot, ?_⟩
            have hraise : (m.under c).step = ((m.fetch d).under c).raise m.ip cause _ :=
              (step_of_fault hn' hfault).1
            refine cutShort_of_raise hraise ?_ ⟨rfl, rfl, rfl⟩ (.inl ?_)
            · rw [List.append_nil, reports_announce]
            · rw [hover.kind_eq]
              exact of_decide_eq_true rfl
  · have hr' : (m.under c).state ≠ .running := hr
    rw [step_of_stopped hr, step_of_stopped hr']
    exact .inl rfl

/-! ## Runs -/

theorem after_succ (m : Machine) (n : Nat) : m.after (n + 1) = (m.after n).step.machine := by
  induction n generalizing m with
  | zero => rfl
  | succ n ih => exact ih m.step.machine

theorem after_sameSettings (fits : m.stack.Fits) (n : Nat) :
    SameSettings m (m.after n) ∧ (m.after n).stack.Fits := by
  induction n with
  | zero => exact ⟨.refl m, fits⟩
  | succ n ih =>
    obtain ⟨hsame, hfits⟩ := ih
    rw [after_succ]
    exact ⟨hsame.trans (step_sameSettings hfits), step_fits hfits⟩

/-- Machines with the same settings compare with a configuration in the same way. -/
theorem SameSettings.compare_iff {m' : Machine} (h : SameSettings m m') :
    (m'.Looser c ↔ m.Looser c) ∧ (m'.SameLimits c ↔ m.SameLimits c) := by
  simp only [looser_iff, sameLimits_iff, h.limit_eq, h.config_eq, h.policy_eq, and_self]

theorem SameSettings.looser {m' : Machine} (h : SameSettings m m') (hl : m.Looser c) : m'.Looser c :=
  h.compare_iff.1.2 hl

theorem SameSettings.sameLimits {m' : Machine} (h : SameSettings m m') (hl : m.SameLimits c) :
    m'.SameLimits c :=
  h.compare_iff.2.2 hl

/-- A run under a configuration goes with the run without it until it is cut short. -/
theorem after_under (h : m.Looser c) (fits : (m.under c).stack.Fits) (n : Nat) :
    (∀ j ≤ n, (m.under c).after j = (m.after j).under c) ∨
      ¬ m.SameLimits c ∧ ∃ k < n, (∀ j ≤ k, (m.under c).after j = (m.after j).under c)
        ∧ (m.after k).CutShort c := by
  induction n with
  | zero =>
    refine .inl fun j hj => ?_
    rw [Nat.le_zero.1 hj]
    rfl
  | succ n ih =>
    rcases ih with hall | ⟨hne, k, hk, hcut⟩
    · obtain ⟨hsame, -⟩ := after_sameSettings (h.fits fits) n
      have hfits : ((m.after n).under c).stack.Fits := by
        rw [← hall n (Nat.le_refl n)]
        exact (after_sameSettings fits n).2
      rcases step_under (hsame.looser h) hfits with hstep | ⟨hne, hcut⟩
      · refine .inl fun j hj => ?_
        rcases Nat.lt_or_eq_of_le hj with hlt | rfl
        · exact hall j (Nat.le_of_lt_succ hlt)
        · rw [after_succ, after_succ, hall n (Nat.le_refl n), hstep]
      · exact .inr ⟨fun hlimits => hne (hsame.sameLimits hlimits), n, Nat.lt_succ_self n, hall, hcut⟩
    · exact .inr ⟨hne, k, Nat.lt_succ_of_lt hk, hcut⟩

/-- Once it has been cut short, a run does not go on. -/
theorem after_cut {k j : Nat} (hk : (m.under c).after k = (m.after k).under c)
    (hcut : (m.after k).CutShort c) (hj : k < j) :
    (m.under c).after j = ((m.after k).under c).step.machine := by
  induction j with
  | zero => exact absurd hj (Nat.not_lt_zero k)
  | succ j ih =>
    rcases Nat.lt_or_eq_of_le (Nat.le_of_lt_succ hj) with hlt | rfl
    · have hstopped : ((m.after k).under c).step.machine.state ≠ .running := by
        rw [hcut.state_eq]
        nofun
      rw [after_succ, ih hlt, step_of_stopped hstopped]
    · rw [after_succ, hk]

/-! ## The start of a run -/

/-- A new machine under a configuration with its arguments loaded. -/
def launch (program : Program) (sink : Sink) (args : List Value) (c : Config) : Reply Unit :=
  ((Machine.start program sink).withConfig c).load args

theorem load_under (h : m.Looser c) (args : List Value) :
    (m.under c).load args =
        ⟨(m.load args).machine.under c, (m.load args).notices, (m.load args).result⟩ ∨
      ∃ n, m.stack.limit ≠ c.maxStackDepth
        ∧ (m.under c).load args = ⟨m.under c, [], .error (.load (.overflow n c.maxStackDepth))⟩ := by
  by_cases hnew : (0 < m.executed || !m.stack.isEmpty) = true
  · have hnew' : (0 < (m.under c).executed || !(m.under c).stack.isEmpty) = true := hnew
    rw [load, load, if_pos hnew, if_pos hnew']
    exact .inl rfl
  · have hnew' : ¬ (0 < (m.under c).executed || !(m.under c).stack.isEmpty) = true := hnew
    rw [load, load, if_neg hnew, if_neg hnew']
    rcases OperandStack.reserve_withLimit h.stack (args.length + 2) with hsame | ⟨hne, hfull⟩
    · have hroom : (m.under c).stack.reserve (args.length + 2) = m.stack.reserve (args.length + 2) := hsame
      rw [hroom]
      cases m.stack.reserve (args.length + 2) <;> exact .inl rfl
    · have hroom : (m.under c).stack.reserve (args.length + 2) = _ := hfull
      refine .inr ⟨args.length + 2, hne, ?_⟩
      rw [hroom]

/-! ## Observations -/

/-- What can be observed of a machine between two steps. -/
structure Observation where
  ip : Nat
  fp : Nat
  stack : List Value
  returns : List Nat
  state : RunState
  executed : Nat
  faults : Nat
  output : ByteString

def observation (m : Machine) : Observation :=
  ⟨m.ip, m.fp, m.stack.toList, m.returns.toList, m.state, m.executed, m.reporter.count, m.sink.written⟩

/-- After `n` steps two machines are the same to an observer, or `limited` is cut short in one of them: by a
fatal fault for a limit or by the policy, which leaves it faulted with the stack and the frames that `free`
had before that step. -/
def AgreeUntilCut (c : Config) (free limited : Machine) (n : Nat) : Prop :=
  (limited.after n).observation = (free.after n).observation ∨
    ∃ k < n, (∀ j ≤ k, (limited.after j).observation = (free.after j).observation)
      ∧ ∃ report, (limited.after k).step.reports = [report] ∧ report.isFatal = true
        ∧ (report.kind = .stackOverflow ∨ report.kind = .instructionLimitExceeded
          ∨ report.kind = .typeMismatch ∧ c.fatalTypeMismatch = true)
        ∧ ∀ j, k < j → (limited.after j).state = .faulted
          ∧ (limited.after j).stack.toList = (free.after k).stack.toList
          ∧ (limited.after j).fp = (free.after k).fp ∧ (limited.after j).returns = (free.after k).returns
          ∧ (report.kind = .typeMismatch →
            (limited.after j).sink.written = (free.after (k + 1)).sink.written)

theorem agreeUntilCut_under (h : m.Looser c) (fits : (m.under c).stack.Fits) (n : Nat) :
    AgreeUntilCut c m (m.under c) n := by
  rcases after_under h fits n with hall | ⟨-, k, hk, hall, hcut⟩
  · rw [AgreeUntilCut, hall n (Nat.le_refl n)]
    exact .inl rfl
  · refine .inr ⟨k, hk, fun j hj => by rw [hall j hj]; rfl, ?_⟩
    have hkeq := hall k (Nat.le_refl k)
    obtain ⟨report, hreports, hfatal, hkind⟩ := hcut.report
    refine ⟨report, by rw [hkeq]; exact hreports, hfatal, ?_, fun j hj => ?_⟩
    · rcases hkind with hlimit | ⟨hpolicy, hmismatch, -⟩
      · simp only [limitKinds, List.mem_cons, List.not_mem_nil, or_false] at hlimit
        rcases hlimit with hover | hbudget
        · exact .inl hover
        · exact .inr (.inl hbudget)
      · exact .inr (.inr ⟨hmismatch, hpolicy⟩)
    · rw [after_cut hkeq hcut hj, after_succ]
      refine ⟨hcut.state_eq, congrArg Pile.toList hcut.values_eq, hcut.fp_eq, hcut.returns_eq, ?_⟩
      intro hmismatch
      rcases hkind with hlimit | ⟨-, -, hsink⟩
      · rw [hmismatch] at hlimit
        exact absurd hlimit (of_decide_eq_true rfl)
      · rw [hsink]

/-- Without limits no fault lies in a limit. -/
theorem Raises.notMem_limitKinds (h : m.Raises m₁ cause) (hconfig : m.config = .default)
    (hlimit : m.stack.limit = 0) : cause.kind ∉ limitKinds := by
  cases h with
  | exhausted hb =>
    rw [isBudgetExhausted, hconfig] at hb
    cases hb
  | undecoded _ hd =>
    rcases decode_eq_error hd with ⟨-, rfl⟩ | ⟨op, -, -, rfl⟩ <;> exact of_decide_eq_true rfl
  | @refused d cause _ h =>
    cases h.refusal with
    | operands h => exact fun hmem => kind_of_operands h (List.mem_append_right _ hmem)
    | @room n h =>
      have hroom : m.stack.reserve n = .ok () := OperandStack.reserve_eq_ok.2 fun hpos => by omega
      cases hroom.symm.trans h
    | calls _ hpos _ =>
      change 0 < m.config.maxCallDepth at hpos
      rw [hconfig] at hpos
      cases hpos
    | constant _ h => rw [constant_eq_error h]; exact of_decide_eq_true rfl
    | target _ h => rw [jumpTarget_eq_error h]; exact of_decide_eq_true rfl

theorem SameLimits.looser (h : m.SameLimits c) : m.Looser c :=
  ⟨.inr h.stack, .inr h.calls, .inr h.budget, .inr h.policy⟩

section Launch

variable (program : Program) (sink : Sink) (args : List Value)

theorem launch_fits (c : Config) : (launch program sink args c).machine.stack.Fits :=
  load_fits args fun _ => Nat.zero_le _

theorem launch_sameSettings (c : Config) :
    SameSettings ((Machine.start program sink).withConfig c) (launch program sink args c).machine :=
  load_sameSettings _ args

/-- Without limits there is room for all arguments. -/
theorem launch_default_result : (launch program sink args .default).result = .ok () := by
  have hroom :
      ((Machine.start program sink).withConfig .default).stack.reserve (args.length + 2) = .ok () :=
    OperandStack.reserve_eq_ok.2 fun hpos => absurd hpos (Nat.lt_irrefl 0)
  rw [launch, load, if_neg (of_decide_eq_true rfl), hroom]

/-- The default machine is never refused for a limit. -/
theorem launch_default_reports (n : Nat) (report : Report)
    (h : report ∈ ((launch program sink args .default).machine.after n).step.reports) :
    report.kind ∉ limitKinds := by
  obtain ⟨hafter, hfits⟩ := after_sameSettings (launch_fits program sink args .default) n
  have hsame := (launch_sameSettings program sink args .default).trans hafter
  obtain ⟨m₁, cause, before, hraise, -, rfl⟩ := exists_raises hfits h
  exact hraise.notMem_limitKinds hsame.config_eq hsame.limit_eq

/-- A trace is nothing that a run depends on. -/
theorem launch_trace (c : Config) (trace : Bool) :
    (launch program sink args { c with trace }).result = (launch program sink args c).result
      ∧ ∀ n, ((launch program sink args { c with trace }).machine.after n).observation =
        ((launch program sink args c).machine.after n).observation := by
  have hlimits : ((Machine.start program sink).withConfig c).SameLimits { c with trace } :=
    ⟨rfl, rfl, rfl, rfl⟩
  have hload : launch program sink args { c with trace } =
      ⟨(launch program sink args c).machine.under { c with trace }, (launch program sink args c).notices,
        (launch program sink args c).result⟩ := by
    rcases load_under hlimits.looser args with hsame | ⟨n, hne, -⟩
    · exact hsame
    · exact absurd hlimits.stack hne
  have hlimits' := (launch_sameSettings program sink args c).sameLimits hlimits
  have hfits := launch_fits program sink args { c with trace }
  rw [hload] at hfits ⊢
  refine ⟨rfl, fun n => ?_⟩
  rcases after_under hlimits'.looser hfits n with hall | ⟨hne, -⟩
  · rw [hall n (Nat.le_refl n)]
    rfl
  · exact absurd hlimits' hne

/-- Limits and policy only cut runs short: a run under `c` is observed to be the default one until it is cut
short, the default one is never cut short, and whether instructions are traced is never observed. -/
theorem limits_only_cut_runs_short (c : Config) :
    ((∃ cause, cause.kind = .stackOverflow ∧ launch program sink args c =
          ⟨(Machine.start program sink).withConfig c, [], .error (.load cause)⟩) ∨
        (launch program sink args c).result = .ok () ∧ (launch program sink args .default).result = .ok ()
          ∧ ∀ n, AgreeUntilCut c (launch program sink args .default).machine
            (launch program sink args c).machine n)
      ∧ (∀ n, ∀ report ∈ ((launch program sink args .default).machine.after n).step.reports,
        report.kind ∉ limitKinds)
      ∧ ∀ trace, (launch program sink args { c with trace }).result = (launch program sink args c).result
        ∧ ∀ n, ((launch program sink args { c with trace }).machine.after n).observation =
          ((launch program sink args c).machine.after n).observation := by
  refine ⟨?_, launch_default_reports program sink args, launch_trace program sink args c⟩
  have hlooser : ((Machine.start program sink).withConfig .default).Looser c :=
    ⟨.inl rfl, .inl rfl, .inl rfl, .inl rfl⟩
  rcases load_under hlooser args with hsame | ⟨n, -, hfull⟩
  · change launch program sink args c = _ at hsame
    have hfits := launch_fits program sink args c
    rw [hsame] at hfits ⊢
    refine .inr ⟨launch_default_result program sink args, launch_default_result program sink args, ?_⟩
    exact agreeUntilCut_under ((launch_sameSettings program sink args .default).looser hlooser) hfits
  · exact .inl ⟨_, rfl, hfull⟩

end Launch

end StackMachine.Machine

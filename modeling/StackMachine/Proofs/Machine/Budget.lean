import StackMachine.Proofs.Machine.Bounds
import StackMachine.Proofs.Machine.Capacity
import StackMachine.Proofs.Machine.Reports
import StackMachine.Proofs.Machine.Runs

/-!
An instruction budget makes every run end.  Each step of a machine that goes on executes an instruction, so the
rest of the budget bounds the steps; the fault for a budget that is used up is raised between two instructions
and cannot be survived.  A program that stops within the budget by itself never meets it.
-/

set_option autoImplicit false

namespace StackMachine.Machine

variable {m : Machine}

/-! ## The fault for a budget that is used up -/

theorem state_of_fatal (fits : m.stack.Fits) {report : Report} (h : m.step.result = .error (.fatal report)) :
    report ∈ m.step.reports ∧ m.step.machine.state = .faulted := by
  have hr : m.state = .running := by
    by_cases hr : m.state = .running
    · exact hr
    · rw [step_of_stopped hr] at h
      cases h
  rcases (ends fits hr).of_error h with ⟨failure, hout⟩ | ⟨report', hmem, hfatal⟩
  · cases hout
  · cases hfatal
    refine ⟨hmem, ?_⟩
    obtain ⟨m₁, cause, before, -, hstep, rfl⟩ := exists_raises fits hmem
    rw [hstep, raise_result] at h
    rw [hstep, raise_machine]
    have hfatal : (m₁.reportOf m.ip cause).isFatal = true := by
      split at h
      · cases h
      · split at h
        · next hfatal => exact hfatal
        · cases h
    rw [stopsAt, hfatal, Bool.or_true, if_pos rfl]

theorem state_eq_of_raise {start : Nat} {cause : Cause} {before : List Notice} {state : RunState}
    (h : (m.raise start cause before).result = .ok state) : m.state = state := by
  obtain ⟨hstops, -⟩ := raise_result_eq_ok h
  have hstate := state_of_raise h
  rw [raise_machine, hstops] at hstate
  exact hstate

/-- A step that goes well never leaves the machine faulted. -/
theorem halted_of_step (fits : m.stack.Fits) {state : RunState} (h : m.step.result = .ok state)
    (hs : state ≠ .running) : state = .halted := by
  have hsteps := steps m
  generalize m.step = r at h hsteps
  cases hsteps with
  | stopped => cases h
  | ended => cases h; rfl
  | exhausted hr | undecoded hr => exact absurd ((state_eq_of_raise h).symm.trans hr) hs
  | @performed d hn =>
    have hr : (m.fetch d).state = .running := (decodes_of_next? hn).running
    have he := executes (m := m.fetch d) fits m.ip d.instruction
    obtain ⟨-, hgoes⟩ := he.goes_on hr
    generalize (m.fetch d).execute m.ip d.instruction = e at h he hgoes
    rw [settle] at h
    split at h
    · cases h
      cases hstate : e.machine.state with
      | running => exact absurd hstate hs
      | halted => rfl
      | faulted => exact absurd hstate hgoes
    · next cause htrap =>
      cases he with
      | refused => exact absurd ((state_eq_of_raise h).symm.trans hr) hs
      | _ => cases htrap
    · cases h

/-- Delivering the output raises no fault. -/
theorem finish_ne_fatal {m' : Machine} {report : Report} : m'.finish.2 ≠ .error (.fatal report) := by
  intro h
  rw [finish] at h
  split at h <;> cases h

/-- Only the budget raises the fault that is named for it, and only in a machine that has used it up. -/
theorem Raises.of_limit {m₁ : Machine} {cause : Cause} (h : m.Raises m₁ cause)
    (hk : cause.kind = .instructionLimitExceeded) : m₁ = m ∧ m.isBudgetExhausted = true := by
  cases h with
  | exhausted hb => exact ⟨rfl, hb⟩
  | undecoded _ hd => rcases decode_eq_error hd with ⟨-, rfl⟩ | ⟨op, -, -, rfl⟩ <;> cases hk
  | refused _ h =>
    refine absurd ?_ h.refusal.kind_notMem
    rw [hk]
    exact of_decide_eq_true rfl

theorem le_of_isBudgetExhausted (hb : m.isBudgetExhausted = true) :
    0 < m.config.maxInstructions ∧ m.config.maxInstructions ≤ m.executed := by
  simpa [isBudgetExhausted] using hb

/-- The registers and the stack of two machines are the same. -/
structure SamePlace (m m' : Machine) : Prop where
  ip_eq : m'.ip = m.ip
  fp_eq : m'.fp = m.fp
  stack_eq : m'.stack = m.stack
  returns_eq : m'.returns = m.returns
  executed_eq : m'.executed = m.executed

/-- The step that finds the budget used up leaves the machine where its last instruction has left it. -/
theorem step_of_limit (fits : m.stack.Fits) {report : Report} (hmem : report ∈ m.step.reports)
    (hk : report.kind = .instructionLimitExceeded) :
    m.state = .running ∧ m.isBudgetExhausted = true ∧ m.SamePlace m.step.machine := by
  obtain ⟨m₁, cause, before, hraises, hstep, rfl⟩ := exists_raises fits hmem
  obtain ⟨rfl, hb⟩ := hraises.of_limit hk
  refine ⟨(exists_line_of_reports hmem).1, hb, ?_⟩
  rw [hstep, raise_machine]
  exact ⟨rfl, rfl, rfl, rfl, rfl⟩

/-! ## Machines with a budget -/

/-- A run that is given the rest of the budget and one step more comes to an end, which no further steps
change.  It ends well only if the machine has halted, and with a fault only if it is faulted; if the fault is
that the budget is used up, just that many instructions were executed, and the machine is where the last of them
has left it. -/
structure RunsOnBudget (m : Machine) : Prop where
  ends : ∀ {σ : Type} (watch : σ → Notice → σ) (seen : σ), (m.run watch seen).result ≠ none
  steps : ∀ {σ : Type} (watch : σ → Notice → σ) (seen : σ) (n : Nat),
    m.config.maxInstructions - m.executed + 1 ≤ n → m.runFor watch n seen = m.run watch seen
  halted : ∀ {σ : Type} (watch : σ → Notice → σ) (seen : σ), (m.run watch seen).result = some (.ok ()) →
    (m.run watch seen).machine.state = .halted
  faulted : ∀ {σ : Type} (watch : σ → Notice → σ) (seen : σ) (report : Report),
    (m.run watch seen).result = some (.error (.fatal report)) →
      (m.run watch seen).machine.state = .faulted
        ∧ (report.kind = .instructionLimitExceeded →
          let last := m.after (m.config.maxInstructions - m.executed)
          last.state = .running ∧ last.executed = m.config.maxInstructions
            ∧ last.SamePlace (m.run watch seen).machine)

section Reachable

variable {program : Program} {config : Config} {sink : Sink}

theorem Reachable.after (h : Reachable program config sink m) (n : Nat) :
    Reachable program config sink (m.after n) := by
  induction n with
  | zero => exact h
  | succ n ih =>
    rw [after_succ]
    exact ih.step

theorem Reachable.executed_after_le (h : Reachable program config sink m) (hpos : 0 < config.maxInstructions)
    (n : Nat) : (m.after n).executed ≤ config.maxInstructions :=
  (h.after n).withinLimits.executed hpos

/-- A machine is not running any more when it has been given the rest of its budget and one step more. -/
theorem Reachable.stops (h : Reachable program config sink m) (hpos : 0 < config.maxInstructions) :
    (m.after (config.maxInstructions - m.executed + 1)).state ≠ .running := by
  intro hr
  have hexecuted := executed_after h.fits hr
  have hle := h.executed_after_le hpos (config.maxInstructions - m.executed + 1)
  have hle₀ := h.executed_after_le hpos 0
  change m.executed ≤ _ at hle₀
  omega

theorem Reachable.runsOnBudget (h : Reachable program config sink m) (hpos : 0 < config.maxInstructions) :
    m.RunsOnBudget := by
  obtain ⟨hconfig, -⟩ := h.config_eq
  have hbound : m.stepBound = config.maxInstructions - m.executed + 1 := by
    rw [stepBound, hconfig, if_pos hpos]
  have hends : ∀ {σ : Type} (watch : σ → Notice → σ) (seen : σ), (m.run watch seen).result ≠ none := by
    intro σ watch seen
    rw [run, hbound]
    exact runFor_result watch seen _ (h.stops hpos)
  constructor
  case ends => exact hends
  case steps =>
    intro σ watch seen n hn
    rw [hconfig, ← hbound] at hn
    obtain ⟨k, rfl⟩ := Nat.exists_eq_add_of_le hn
    exact runFor_add watch seen (hends watch seen) k
  case halted =>
    intro σ watch seen hresult
    have hrun := runFor_ends watch seen hresult
    rw [run]
    generalize (m.runFor watch m.stepBound seen).machine = m' at hrun
    cases hrun with
    | @stopped k state _ hk hstep hs hr =>
      obtain ⟨sink', hfinish⟩ := finish_machine (m.after k).step.machine
      rw [hfinish, ← halted_of_step (h.after k).fits hstep hs]
      exact state_of_step hstep
  case faulted =>
    intro σ watch seen report hresult
    have hrun := runFor_ends watch seen hresult
    rw [run]
    generalize (m.runFor watch m.stepBound seen).machine = m' at hrun
    cases hrun with
    | stopped hk hstep hs hr => exact absurd hr finish_ne_fatal
    | @failed k _ hk hstep =>
      have hreach := h.after k
      obtain ⟨hmem, hstate⟩ := state_of_fatal hreach.fits hstep
      refine ⟨hstate, fun hkind => ?_⟩
      obtain ⟨hr, hb, hsame⟩ := step_of_limit hreach.fits hmem hkind
      have hle := hreach.withinLimits.executed hpos
      have hge := (le_of_isBudgetExhausted hb).2
      have hexecuted := executed_after h.fits hr
      rw [hreach.config_eq.1] at hge
      have hk : k = m.config.maxInstructions - m.executed := by
        rw [hconfig]
        omega
      rw [← hk, hconfig]
      exact ⟨hr, Nat.le_antisymm hle hge, hsame⟩

end Reachable

/-! ## Programs that stop within the budget -/

/-- What a machine has executed, it has executed. -/
theorem executed_le_step (fits : m.stack.Fits) : m.executed ≤ m.step.machine.executed := by
  cases hn : m.next? with
  | none =>
    obtain ⟨-, -, -, hexecuted⟩ := step_of_next?_eq_none hn
    omega
  | some d =>
    rw [executed_of_next? fits hn]
    exact Nat.le_succ _

theorem executed_after_mono (fits : m.stack.Fits) {k n : Nat} (hk : k ≤ n) :
    (m.after k).executed ≤ (m.after n).executed := by
  induction hk with
  | refl => exact Nat.le_refl _
  | @step n _ ih =>
    rw [after_succ]
    exact Nat.le_trans ih (executed_le_step (after_sameSettings fits n).2)

/-- A machine without a budget takes another instruction from the code as long as there is one. -/
theorem executed_step_of_unlimited (fits : m.stack.Fits) (hconfig : m.config.maxInstructions = 0)
    (hr : m.state = .running) {word : Word} (hip : m.program.code[m.ip]? = some word) :
    m.step.machine.executed = m.executed + 1 := by
  have hb : m.isBudgetExhausted = false := by
    rw [isBudgetExhausted, hconfig]
    rfl
  cases hd : decode m.program.code m.ip word with
  | error cause => rw [step_of_decode_error hr hip hb hd, raise_machine]
  | ok d => exact executed_of_next? fits (next?_eq_some hr hip hb hd)

/-- If `free` stops after at most `budget` instructions, then no step of `bounded` ever raises the fault for a
budget that is used up. -/
def BudgetSuffices (budget : Nat) (free bounded : Machine) : Prop :=
  ∀ n, (free.after n).state ≠ .running → (free.after n).executed ≤ budget →
    ∀ k, ∀ report ∈ (bounded.after k).step.reports, report.kind ≠ .instructionLimitExceeded

/-- The machine under a budget goes with the one that has none until the latter stops. -/
theorem budgetSuffices_under {c : Config} (h : m.Looser c) (fits : (m.under c).stack.Fits)
    (hconfig : m.config.maxInstructions = 0) : BudgetSuffices c.maxInstructions m (m.under c) := by
  intro n hstopped hle k report hmem hkind
  have hfits := h.fits fits
  obtain ⟨hsame', hfits'⟩ := after_sameSettings fits k
  obtain ⟨hr, hb, -⟩ := step_of_limit hfits' hmem hkind
  rcases after_under h fits k with hall | ⟨-, j, hj, hall, hcut⟩
  · have hk := hall k (Nat.le_refl k)
    obtain ⟨hsame, hfitsk⟩ := after_sameSettings hfits k
    rw [hk] at hr hb hmem
    have hbudget : c.maxInstructions ≤ (m.after k).executed := (le_of_isBudgetExhausted hb).2
    obtain ⟨hrun, line, hline⟩ := exists_line_of_reports hmem
    obtain ⟨word, hword⟩ : ∃ word, (m.after k).program.code[(m.after k).ip]? = some word := by
      have hlt : (m.after k).ip < (m.after k).program.code.size := (Listing.lineAt?_lt hline).1
      exact ⟨_, Array.getElem?_eq_getElem hlt⟩
    -- the budget is used up before `free` has stopped, so its next step goes over it
    have hnext := executed_step_of_unlimited hfitsk (hsame.config_eq ▸ hconfig) hr hword
    rw [← after_succ] at hnext
    rcases Nat.lt_or_ge k n with hlt | hge
    · have hmono : (m.after (k + 1)).executed ≤ (m.after n).executed := executed_after_mono hfits hlt
      omega
    · obtain ⟨i, rfl⟩ := Nat.exists_eq_add_of_le hge
      rw [after_add, after_of_stopped hstopped] at hr
      exact hstopped hr
  · rw [after_cut (hall j (Nat.le_refl j)) hcut hj, hcut.state_eq] at hr
    cases hr

/-! ## All runs -/

section Launch

variable (program : Program) (sink : Sink) (config : Config)

theorem budgetSuffices_configured :
    BudgetSuffices config.maxInstructions
      ((Machine.start program sink).withConfig { config with maxInstructions := 0 })
      ((Machine.start program sink).withConfig config) :=
  budgetSuffices_under (c := config) ⟨.inr rfl, .inr rfl, .inl rfl, .inr rfl⟩ (fun _ => Nat.zero_le _) rfl

theorem budgetSuffices_launch (args : List Value) :
    BudgetSuffices config.maxInstructions
      (launch program sink args { config with maxInstructions := 0 }).machine
      (launch program sink args config).machine := by
  have hlooser : ((Machine.start program sink).withConfig { config with maxInstructions := 0 }).Looser config :=
    ⟨.inr rfl, .inr rfl, .inl rfl, .inr rfl⟩
  have hfits := launch_fits program sink args config
  have hsame := launch_sameSettings program sink args { config with maxInstructions := 0 }
  rcases load_under hlooser args with hload | ⟨n, hne, -⟩
  · change launch program sink args config = _ at hload
    rw [hload] at hfits ⊢
    exact budgetSuffices_under (hsame.looser hlooser) hfits (congrArg Config.maxInstructions hsame.config_eq)
  · exact absurd rfl hne

end Launch

end StackMachine.Machine

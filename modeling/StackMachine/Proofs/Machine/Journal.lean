import StackMachine.Proofs.Machine.Runs
import StackMachine.Proofs.Machine.Tracing

/-!
The journal of a machine: the machines that its steps have found, and all that it has let known.  The events in it
account for the machine, the lines of the trace are those of the steps, and neither a debugger nor the trace
changes anything.
-/

set_option autoImplicit false

namespace StackMachine.Machine

variable {program : Program} {config : Config} {sink : Sink} {found : List Machine} {notices : List Notice}
  {m : Machine}

/-- A machine that a host gets to by loading, stepping and running, with the machines that its steps have found and
what it has let known. -/
inductive Journal (program : Program) (config : Config) (sink : Sink) :
    List Machine → List Notice → Machine → Prop
  | configured : Journal program config sink [] [] ((Machine.start program sink).withConfig config)
  | load {found : List Machine} {notices : List Notice} {m : Machine} (args : List Value)
    (h : Journal program config sink found notices m) :
    Journal program config sink found (notices ++ (m.load args).notices) (m.load args).machine
  | step {found : List Machine} {notices : List Notice} {m : Machine}
    (h : Journal program config sink found notices m) :
    Journal program config sink (found ++ [m]) (notices ++ m.step.notices) m.step.machine
  | finish {found : List Machine} {notices : List Notice} {m : Machine}
    (h : Journal program config sink found notices m) : Journal program config sink found notices m.finish.1

theorem Journal.reachable (h : Journal program config sink found notices m) :
    Reachable program config sink m := by
  induction h with
  | configured => exact .configured
  | load args _ ih => exact ih.load args
  | step _ ih => exact ih.step
  | finish _ ih => exact ih.finish

/-- The machine keeps the limits and the policy that it was configured with. -/
theorem Reachable.sameLimits (h : Reachable program config sink m) : m.config = config ∧ m.SameLimits m.config := by
  have hsettings := h.sameSettings
  have hconfig : m.config = config := hsettings.config_eq
  refine ⟨hconfig, ?_⟩
  rw [hconfig]
  exact hsettings.sameLimits ⟨rfl, rfl, rfl, rfl⟩

/-! ## Events -/

theorem accounts_load (m : Machine) (args : List Value) :
    m.Accounts (m.load args).machine (eventsOf (m.load args).notices) := by
  rcases load_cases m args with ⟨e, h⟩ | ⟨-, -, -, stack, -, h⟩ <;> rw [h]
  · exact .refl m
  · exact accounts_silent id (fun _ => rfl) rfl rfl

theorem accounts_finish (m : Machine) : m.Accounts m.finish.1 [] := by
  obtain ⟨sink, h⟩ := finish_machine m
  rw [h]
  exact accounts_silent id (fun _ => rfl) rfl rfl

/-- All events so far account for what a new machine has become. -/
theorem Journal.accounts (h : Journal program config sink found notices m) :
    ((Machine.start program sink).withConfig config).Accounts m (eventsOf notices) := by
  induction h with
  | configured => exact .refl _
  | load args _ ih =>
    rw [eventsOf_append]
    exact ih.trans (accounts_load _ args)
  | step h ih =>
    rw [eventsOf_append]
    exact ih.trans (accounts_step h.reachable.fits)
  | finish _ ih =>
    have hfinish := ih.trans (accounts_finish _)
    rw [List.append_nil] at hfinish
    exact hfinish

/-! ## The trace -/

theorem Journal.shows (h : Journal program config sink found notices m) :
    Shows notices config.trace (found.filterMap taken?) := by
  induction h with
  | configured => exact ⟨rfl, by split <;> rfl⟩
  | @load _ _ m args _ ih =>
    have hload : Shows (m.load args).notices config.trace [] := by
      rcases load_cases m args with ⟨e, h⟩ | ⟨-, -, -, stack, -, h⟩ <;> rw [h] <;> exact ⟨rfl, by split <;> rfl⟩
    have happend := ih.append hload
    rw [List.append_nil] at happend
    exact happend
  | @step _ _ m h ih =>
    have hstep := shows_step h.reachable.fits
    rw [h.reachable.sameLimits.1] at hstep
    rw [List.filterMap_append]
    have hfound : [m].filterMap taken? = m.taken?.toList := by
      cases htaken : m.taken? <;> simp [htaken]
    rw [hfound]
    exact ih.append hstep
  | finish _ ih => exact ih

/-- The same machines are found, and the same is let known but for the trace, with the trace on or off. -/
theorem Journal.tracing (h : Journal program config sink found notices m) (trace : Bool) :
    ∃ notices', untraced notices' = untraced notices
      ∧ Journal program { config with trace } sink (found.map (·.tracing trace)) notices' (m.tracing trace) := by
  induction h with
  | configured => exact ⟨[], rfl, .configured⟩
  | @load _ _ m args _ ih =>
    obtain ⟨notices', hnotices, hjournal⟩ := ih
    have hsame := sameReply_load m args trace
    refine ⟨notices' ++ ((m.tracing trace).load args).notices, ?_, ?_⟩
    · rw [untraced_append, untraced_append, hnotices, hsame.notices_eq]
    · rw [← hsame.machine_eq]
      exact hjournal.load args
  | @step _ _ m h ih =>
    obtain ⟨notices', hnotices, hjournal⟩ := ih
    have hsame := sameReply_step h.reachable.fits h.reachable.sameLimits.2 trace
    refine ⟨notices' ++ (m.tracing trace).step.notices, ?_, ?_⟩
    · rw [untraced_append, untraced_append, hnotices, hsame.notices_eq]
    · rw [← hsame.machine_eq, List.map_append]
      exact hjournal.step
  | @finish _ _ m _ ih =>
    obtain ⟨notices', hnotices, hjournal⟩ := ih
    refine ⟨notices', hnotices, ?_⟩
    have hfinish := hjournal.finish
    rw [finish_tracing] at hfinish
    exact hfinish

/-! ## Runs -/

section Runs

variable {σ τ : Type} (watch : σ → Notice → σ) (watch' : τ → Notice → τ)

/-- What a run lets known is all that its watcher is shown. -/
theorem Journal.runFor (h : Journal program config sink found notices m) (n : Nat) (seen : σ) :
    ∃ found' notices', Journal program config sink found' notices' (m.runFor watch n (notices.foldl watch seen)).machine
      ∧ (m.runFor watch n (notices.foldl watch seen)).seen = notices'.foldl watch seen := by
  induction n generalizing found notices m with
  | zero => exact ⟨found, notices, h, rfl⟩
  | succ n ih =>
    have hseen : m.step.notices.foldl watch (notices.foldl watch seen)
        = (notices ++ m.step.notices).foldl watch seen := List.foldl_append.symm
    cases hresult : m.step.result with
    | error e =>
      rw [runFor_of_error watch _ n hresult, hseen]
      exact ⟨_, _, h.step, rfl⟩
    | ok state =>
      by_cases hs : state = .running
      · subst hs
        rw [runFor_of_running watch _ n hresult, hseen]
        exact ih h.step
      · rw [runFor_of_ok watch _ n hresult hs, hseen]
        exact ⟨_, _, h.step.finish, rfl⟩

theorem Journal.startWith (h : Journal program config sink found notices m) (args : List Value) (seen : σ) :
    ∃ found' notices',
      Journal program config sink found' notices' (m.startWith watch args (notices.foldl watch seen)).machine
        ∧ (m.startWith watch args (notices.foldl watch seen)).seen = notices'.foldl watch seen := by
  have hseen : (m.load args).notices.foldl watch (notices.foldl watch seen)
      = (notices ++ (m.load args).notices).foldl watch seen := List.foldl_append.symm
  rw [Machine.startWith]
  dsimp only
  rw [hseen]
  split
  · exact ⟨_, _, h.load args, rfl⟩
  · exact (h.load args).runFor watch _ seen

/-- A run goes the same way whoever watches it, with the trace on or off. -/
theorem runFor_tracing (h : Reachable program config sink m) (trace : Bool) (n : Nat) (seen : σ) (seen' : τ) :
    ((m.tracing trace).runFor watch' n seen').machine = (m.runFor watch n seen).machine.tracing trace
      ∧ ((m.tracing trace).runFor watch' n seen').result = (m.runFor watch n seen).result := by
  induction n generalizing m seen seen' with
  | zero => exact ⟨rfl, rfl⟩
  | succ n ih =>
    have hsame := sameReply_step h.fits h.sameLimits.2 trace
    cases hresult : m.step.result with
    | error e =>
      rw [runFor_of_error watch seen n hresult, runFor_of_error watch' seen' n (hsame.result_eq.trans hresult)]
      exact ⟨hsame.machine_eq, rfl⟩
    | ok state =>
      have hresult' := hsame.result_eq.trans hresult
      by_cases hs : state = .running
      · subst hs
        rw [runFor_of_running watch seen n hresult, runFor_of_running watch' seen' n hresult', hsame.machine_eq]
        exact ih h.step _ _
      · rw [runFor_of_ok watch seen n hresult hs, runFor_of_ok watch' seen' n hresult' hs, hsame.machine_eq,
          finish_tracing]
        exact ⟨rfl, rfl⟩

theorem startWith_tracing (h : Reachable program config sink m) (trace : Bool) (args : List Value) (seen : σ)
    (seen' : τ) :
    ((m.tracing trace).startWith watch' args seen').machine = (m.startWith watch args seen).machine.tracing trace
      ∧ ((m.tracing trace).startWith watch' args seen').result = (m.startWith watch args seen).result := by
  have hsame := sameReply_load m args trace
  rw [Machine.startWith, Machine.startWith]
  dsimp only
  rw [hsame.result_eq, hsame.machine_eq]
  cases (m.load args).result with
  | error e => exact ⟨rfl, rfl⟩
  | ok => exact runFor_tracing watch watch' (h.load args) trace _ _ _

end Runs

/-! ## The account of a run -/

/-- How the events and the trace of a machine account for what it has done. -/
structure TellsRun (config : Config) (found : List Machine) (notices : List Notice) (m : Machine) : Prop where
  /-- The calls that are active are those that were entered and not left. -/
  calls : m.state = .running →
    m.callDepth + (eventsOf notices).countP Event.isExit = (eventsOf notices).countP Event.isEnter
  faults : (eventsOf notices).countP Event.isFault = m.reporter.count
  /-- All that has been executed was announced, but for a word that is no instruction. -/
  steps : (eventsOf notices).countP Event.isStep + (eventsOf notices).countP Event.isUndecoded = m.executed
  /-- Only the last event can tell of such a word. -/
  undecoded : ∀ event ∈ (eventsOf notices).dropLast, event.isUndecoded = false
  announced : Announced (eventsOf notices)
  /-- The steps and the lines of the trace are those of the instructions taken, as the machine was before each. -/
  shows : Shows notices config.trace (found.filterMap taken?)

theorem Journal.tellsRun (h : Journal program config sink found notices m) : m.TellsRun config found notices := by
  have haccounts := h.accounts
  constructor
  case calls =>
    intro hr
    have hcalls := haccounts.calls hr
    change _ = 0 + _ at hcalls
    omega
  case faults =>
    have hfaults := haccounts.faults
    change _ = 0 + _ at hfaults
    omega
  case steps =>
    have hexecuted := haccounts.executed
    change _ = 0 + _ + _ at hexecuted
    omega
  case undecoded => exact haccounts.undecoded.2
  case announced => exact haccounts.announced
  case shows => exact h.shows

/-- Events account for every run: what a watcher is shown from the start on tells how often the machine has called
and faulted and what it has executed, the lines of a trace are those of the steps, and the run is the same without
them. -/
theorem events_account_for_run (program : Program) (config : Config) (sink : Sink) :
    (∀ found notices m, Journal program config sink found notices m →
        m.TellsRun config found notices
          ∧ ∀ trace, ∃ notices', untraced notices' = untraced notices
            ∧ Journal program { config with trace } sink (found.map (·.tracing trace)) notices' (m.tracing trace))
      ∧ ∀ {σ τ : Type} (watch : σ → Notice → σ) (watch' : τ → Notice → τ) (args : List Value) (seen : σ)
          (seen' : τ) (trace : Bool),
        let run := ((Machine.start program sink).withConfig config).startWith watch args seen
        let silent := ((Machine.start program sink).withConfig { config with trace }).startWith watch' args seen'
        (∃ found notices, Journal program config sink found notices run.machine
            ∧ run.seen = notices.foldl watch seen)
          ∧ silent.machine = run.machine.tracing trace ∧ silent.result = run.result := by
  refine ⟨fun found notices m h => ⟨h.tellsRun, h.tracing⟩, ?_⟩
  intro σ τ watch watch' args seen seen' trace
  have hconfigured : Journal program config sink [] [] _ := .configured
  exact ⟨hconfigured.startWith watch args seen,
    startWith_tracing watch watch' hconfigured.reachable trace args seen seen'⟩

end StackMachine.Machine

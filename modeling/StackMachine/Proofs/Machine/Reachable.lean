import StackMachine.Machine.Run
import StackMachine.Proofs.Machine.Computed
import StackMachine.Proofs.Machine.Stepping

/-!
The machines that a host gets to: one configuration at the start, and then any arguments loaded and any
number of steps.  The program, the limits and the policy stay as they are, and the stack stays within its
limit.
-/

set_option autoImplicit false

namespace StackMachine.Machine

variable {m m' : Machine} {start : Nat} {i : Instruction}

/-- The settings that no instruction changes. -/
structure SameSettings (m m' : Machine) : Prop where
  program_eq : m'.program = m.program
  config_eq : m'.config = m.config
  limit_eq : m'.stack.limit = m.stack.limit
  policy_eq : m'.reporter.fatalTypeMismatch = m.reporter.fatalTypeMismatch

theorem SameSettings.refl (m : Machine) : SameSettings m m := ⟨rfl, rfl, rfl, rfl⟩

theorem SameSettings.trans {m'' : Machine} (h : SameSettings m m') (h' : SameSettings m' m'') :
    SameSettings m m'' :=
  ⟨h'.program_eq.trans h.program_eq, h'.config_eq.trans h.config_eq, h'.limit_eq.trans h.limit_eq,
    h'.policy_eq.trans h.policy_eq⟩

/-! ## One instruction -/

theorem Executes.sameSettings {e : Execution} (h : m.Executes start i e) :
    SameSettings m e.machine := by
  cases h with
  | computed h => exact ⟨rfl, rfl, (computes h).limit_eq, rfl⟩
  | resumed _ _ he => exact ⟨rfl, rfl, cut_limit _ _ _, rfl⟩
  | finished _ _ he => exact ⟨rfl, rfl, cut_limit _ _ _, rfl⟩
  | _ => exact ⟨rfl, rfl, rfl, rfl⟩

theorem Executes.fits {e : Execution} (h : m.Executes start i e) (fits : m.stack.Fits) :
    e.machine.stack.Fits := by
  cases h with
  | refused | unwritten | halted => exact fits
  | written | went => exact fits.of_le rfl (Nat.sub_le _ _)
  | computed h => exact (computes h).fits fits
  | called hi h =>
    obtain ⟨-, -, -, -, hroom⟩ := checkCall_eq_ok h
    exact OperandStack.fits_of_reserve hroom rfl (Nat.le_refl _)
  | resumed _ hr he => exact fits.of_le (cut_limit _ _ _) (depth_cut_le hr he)
  | finished _ hr he => exact fits.of_le (cut_limit _ _ _) (depth_cut_le hr he)

/-! ## One step -/

theorem step_sameSettings (fits : m.stack.Fits) : SameSettings m m.step.machine := by
  cases lands fits with
  | stays executed count sink state h => rw [h]; exact ⟨rfl, rfl, rfl, rfl⟩
  | executes _ he _ count sink state h =>
    have hs := he.sameSettings
    rw [h]
    exact ⟨hs.program_eq, hs.config_eq, hs.limit_eq, hs.policy_eq⟩

theorem step_fits (fits : m.stack.Fits) : m.step.machine.stack.Fits := by
  cases lands fits with
  | stays executed count sink state h => rw [h]; exact fits
  | executes _ he _ count sink state h => rw [h]; exact he.fits fits

/-! ## All that follows -/

/-- The machines that a host gets to by loading, stepping and running, after it has configured a new one. -/
inductive Reachable (program : Program) (config : Config) (sink : Sink) : Machine → Prop
  | configured : Reachable program config sink ((Machine.start program sink).withConfig config)
  | load {m : Machine} (args : List Value) (h : Reachable program config sink m) :
    Reachable program config sink (m.load args).machine
  | step {m : Machine} (h : Reachable program config sink m) :
    Reachable program config sink m.step.machine
  | finish {m : Machine} (h : Reachable program config sink m) :
    Reachable program config sink m.finish.1

/-- Loading fails and changes nothing, or it puts the first frame on the empty stack. -/
theorem load_cases (m : Machine) (args : List Value) :
    (∃ e, m.load args = ⟨m, [], .error e⟩) ∨
      m.stack.reserve (args.length + 2) = .ok () ∧ m.executed = 0 ∧ m.stack.depth = 0
        ∧ ∃ stack, stack = { m.stack with values := m.stack.values.pile (loaderFrame args) }
          ∧ m.load args =
            ⟨{ m with stack, fp := stack.depth }, [.loaded args.length stack.depth], .ok ()⟩ := by
  rw [load]
  split
  · exact .inl ⟨_, rfl⟩
  · next hnew =>
    cases hroom : m.stack.reserve (args.length + 2) with
    | error cause => exact .inl ⟨_, rfl⟩
    | ok =>
      have hnew' : m.executed = 0 ∧ m.stack.depth = 0 := by
        simpa [OperandStack.isEmpty] using hnew
      exact .inr ⟨rfl, hnew'.1, hnew'.2, _, rfl, rfl⟩

theorem load_sameSettings (m : Machine) (args : List Value) :
    SameSettings m (m.load args).machine := by
  rcases load_cases m args with ⟨e, h⟩ | ⟨-, -, -, stack, rfl, h⟩ <;> rw [h]
  · exact .refl m
  · exact ⟨rfl, rfl, rfl, rfl⟩

theorem load_fits (args : List Value) (fits : m.stack.Fits) : (m.load args).machine.stack.Fits := by
  rcases load_cases m args with ⟨e, h⟩ | ⟨hroom, -, -, stack, rfl, h⟩ <;> rw [h]
  · exact fits
  · refine OperandStack.fits_of_reserve hroom rfl ?_
    exact Nat.le_of_eq (Nat.add_comm _ _)

theorem load_sink (m : Machine) (args : List Value) : (m.load args).machine.sink = m.sink := by
  rcases load_cases m args with ⟨e, h⟩ | ⟨-, -, -, stack, -, h⟩ <;> rw [h]

theorem finish_machine (m : Machine) : ∃ sink, m.finish.1 = { m with sink } := by
  rw [finish]
  split <;> exact ⟨_, rfl⟩

section Reachable

variable {program : Program} {config : Config} {sink : Sink}

theorem Reachable.fits (h : Reachable program config sink m) : m.stack.Fits := by
  induction h with
  | configured => exact fun _ => Nat.zero_le _
  | load args _ ih => exact load_fits args ih
  | step _ ih => exact step_fits ih
  | @finish m _ ih =>
    obtain ⟨sink, h⟩ := finish_machine m
    rw [h]
    exact ih

theorem Reachable.sameSettings (h : Reachable program config sink m) :
    SameSettings ((Machine.start program sink).withConfig config) m := by
  induction h with
  | configured => exact .refl _
  | load args _ ih => exact ih.trans (load_sameSettings _ args)
  | step hm ih => exact ih.trans (step_sameSettings hm.fits)
  | @finish m _ ih =>
    obtain ⟨sink, h⟩ := finish_machine m
    rw [h]
    exact ih.trans ⟨rfl, rfl, rfl, rfl⟩

theorem Reachable.program_eq (h : Reachable program config sink m) : m.program = program :=
  h.sameSettings.program_eq

end Reachable

/-! ## What a host asks for -/

/-- A request of a host: to load arguments, to load them and run, to execute one instruction, or to run. -/
inductive Request where
  | load (args : List Value)
  | start (args : List Value)
  | step
  | run

/-- The machine after a request. -/
def answer (m : Machine) : Request → Machine
  | .load args => (m.load args).machine
  | .start args => (m.startWith (fun _ _ => ()) args ()).machine
  | .step => m.step.machine
  | .run => (m.run (fun _ _ => ()) ()).machine

/-- What loading, a step and the end of a run keep of a machine. -/
structure Stable (P : Machine → Prop) : Prop where
  load : ∀ {m} (args : List Value), P m → P (m.load args).machine
  step : ∀ {m}, P m → P m.step.machine
  finish : ∀ {m}, P m → P m.finish.1

section Stable

variable {P : Machine → Prop}

theorem Stable.runFor {σ : Type} (h : Stable P) (watch : σ → Notice → σ) (n : Nat) (seen : σ) (hm : P m) :
    P (m.runFor watch n seen).machine := by
  induction n generalizing m seen with
  | zero => exact hm
  | succ n ih =>
    unfold Machine.runFor
    dsimp only
    split
    · exact h.step hm
    · exact ih _ (h.step hm)
    · exact h.finish (h.step hm)

theorem Stable.answer (h : Stable P) (request : Request) (hm : P m) : P (m.answer request) := by
  cases request with
  | load args => exact h.load args hm
  | step => exact h.step hm
  | run => exact h.runFor _ _ () hm
  | start args =>
    rw [Machine.answer, startWith]
    dsimp only
    split
    · exact h.load args hm
    · exact h.runFor _ _ _ (h.load args hm)

theorem stable_reachable (program : Program) (config : Config) (sink : Sink) :
    Stable (Reachable program config sink) :=
  ⟨fun args hm => hm.load args, fun hm => hm.step, fun hm => hm.finish⟩

end Stable

end StackMachine.Machine

import StackMachine.Proofs.Machine.Forward

/-!
How runs end.  A run goes on as long as its steps leave the machine running; it ends with the first step that
fails, or with the delivery of the output after the step that stops the machine.
-/

set_option autoImplicit false

namespace StackMachine.Machine

variable {m : Machine}

/-- The ends of a run within `n` steps: a step that fails, or one that stops the machine, whose output is then
delivered. -/
inductive RunEnds (m : Machine) (n : Nat) : Machine → Except MachineError Unit → Prop
  | failed {k : Nat} {e : MachineError} (hk : k < n) (h : (m.after k).step.result = .error e) :
    RunEnds m n (m.after k).step.machine (.error e)
  | stopped {k : Nat} {state : RunState} {r : Except MachineError Unit} (hk : k < n)
    (h : (m.after k).step.result = .ok state) (hs : state ≠ .running)
    (hr : (m.after k).step.machine.finish.2 = r) : RunEnds m n (m.after k).step.machine.finish.1 r

theorem RunEnds.succ {n : Nat} {m' : Machine} {r : Except MachineError Unit}
    (h : m.step.machine.RunEnds n m' r) : m.RunEnds (n + 1) m' r := by
  cases h with
  | failed hk h => exact .failed (m := m) (Nat.succ_lt_succ hk) h
  | stopped hk h hs hr => exact .stopped (m := m) (Nat.succ_lt_succ hk) h hs hr

/-- Only a running machine makes a step that does not fail. -/
theorem running_of_result {state : RunState} (h : m.step.result = .ok state) : m.state = .running := by
  by_contra hr
  rw [step_of_stopped hr] at h
  cases h

section Runs

variable {σ : Type} (watch : σ → Notice → σ) (seen : σ)

theorem runFor_of_error {e : MachineError} (n : Nat) (h : m.step.result = .error e) :
    m.runFor watch (n + 1) seen = ⟨m.step.machine, m.step.notices.foldl watch seen, some (.error e)⟩ := by
  rw [runFor]
  simp only [h]

theorem runFor_of_ok {state : RunState} (n : Nat) (h : m.step.result = .ok state)
    (hs : state ≠ .running) :
    m.runFor watch (n + 1) seen =
      ⟨m.step.machine.finish.1, m.step.notices.foldl watch seen, some m.step.machine.finish.2⟩ := by
  rw [runFor]
  cases state with
  | running => exact absurd rfl hs
  | halted | faulted => simp only [h]

theorem runFor_ends {n : Nat} {r : Except MachineError Unit} (h : (m.runFor watch n seen).result = some r) :
    m.RunEnds n (m.runFor watch n seen).machine r := by
  induction n generalizing m seen with
  | zero => cases h
  | succ n ih =>
    cases hresult : m.step.result with
    | error e =>
      rw [runFor_of_error watch seen n hresult] at h ⊢
      cases h
      exact .failed (k := 0) (Nat.succ_pos n) hresult
    | ok state =>
      by_cases hs : state = .running
      · subst hs
        rw [runFor_of_running watch seen n hresult] at h ⊢
        exact (ih _ h).succ
      · rw [runFor_of_ok watch seen n hresult hs] at h ⊢
        cases h
        exact .stopped (k := 0) (Nat.succ_pos n) hresult hs rfl

/-- A run that goes on for `n` steps and is halted by the next one ends with its output delivered. -/
theorem runFor_of_halted {n steps : Nat} (hgoes : ∀ k < n, (m.after k).step.result = .ok .running)
    (hhalts : (m.after n).step.result = .ok .halted) (hsteps : n < steps) :
    (m.runFor watch steps seen).machine = (m.after (n + 1)).finish.1 ∧
      (m.runFor watch steps seen).result = some (m.after (n + 1)).finish.2 := by
  obtain ⟨steps, rfl⟩ : ∃ k, steps = k + 1 := ⟨steps - 1, by omega⟩
  induction n generalizing m seen steps with
  | zero =>
    have hresult : m.step.result = .ok .halted := hhalts
    rw [runFor_of_ok watch seen steps hresult nofun]
    exact ⟨rfl, rfl⟩
  | succ n ih =>
    have hresult : m.step.result = .ok .running := hgoes 0 (Nat.succ_pos n)
    rw [runFor_of_running watch seen steps hresult]
    obtain ⟨steps, rfl⟩ : ∃ k, steps = k + 1 := ⟨steps - 1, by omega⟩
    exact ih _ (fun k hk => hgoes (k + 1) (Nat.succ_lt_succ hk)) hhalts _ (Nat.lt_of_succ_lt_succ hsteps)

/-- A run that has ended does not depend on how many more steps it was given. -/
theorem runFor_add {n : Nat} (h : (m.runFor watch n seen).result ≠ none) (k : Nat) :
    m.runFor watch (n + k) seen = m.runFor watch n seen := by
  induction n generalizing m seen with
  | zero => exact absurd rfl h
  | succ n ih =>
    rw [Nat.add_right_comm]
    cases hresult : m.step.result with
    | error e => rw [runFor_of_error watch seen _ hresult, runFor_of_error watch seen _ hresult]
    | ok state =>
      by_cases hs : state = .running
      · subst hs
        rw [runFor_of_running watch seen n hresult] at h ⊢
        rw [runFor_of_running watch seen _ hresult]
        exact ih _ h
      · rw [runFor_of_ok watch seen _ hresult hs, runFor_of_ok watch seen _ hresult hs]

end Runs

end StackMachine.Machine

import StackMachine.Machine.Step

/-!
Runs of a machine: steps until it stops, with a watcher that is shown every notice.
-/

set_option autoImplicit false

namespace StackMachine.Machine

/-- The machine after at most `n` steps; it stays as it is once it has stopped. -/
def after : Nat → Machine → Machine
  | 0, m => m
  | n + 1, m => after n m.step.machine

/-- How a run ended: the machine, what the watcher made of the notices, and the result.  There is none if
the machine was still running when the steps were used up. -/
structure Run (σ : Type) where
  machine : Machine
  seen : σ
  result : Option (Except MachineError Unit)

/-- The end of a run of a machine that has stopped without an error: output is delivered. -/
def finish (m : Machine) : Machine × Except MachineError Unit :=
  match m.sink.flush with
  | (sink, none) => ({ m with sink }, .ok ())
  | (sink, some failure) => ({ m with sink }, .error (.output failure))

/-- Runs for at most `steps` steps, showing each notice to `watch`. -/
def runFor {σ : Type} (watch : σ → Notice → σ) (steps : Nat) (m : Machine) (seen : σ) : Run σ :=
  match steps with
  | 0 => ⟨m, seen, none⟩
  | steps + 1 =>
    let ⟨m, notices, result⟩ := m.step
    let seen := notices.foldl watch seen
    match result with
    | .error e => ⟨m, seen, some (.error e)⟩
    | .ok .running => m.runFor watch steps seen
    | .ok _ =>
      let (m, result) := m.finish
      ⟨m, seen, some result⟩

/-- The most steps that a run can take: the rest of the budget and one step to find it used up.  Without a
budget it is more than any machine has time for. -/
def stepBound (m : Machine) : Nat :=
  if 0 < m.config.maxInstructions then m.config.maxInstructions - m.executed + 1 else 0x4000000000000000

/-- Runs until the machine stops. -/
def run {σ : Type} (watch : σ → Notice → σ) (m : Machine) (seen : σ) : Run σ :=
  m.runFor watch m.stepBound seen

/-- Loads the arguments and runs until the machine stops. -/
def startWith {σ : Type} (watch : σ → Notice → σ) (m : Machine) (args : List Value) (seen : σ) :
    Run σ :=
  let ⟨m, notices, result⟩ := m.load args
  let seen := notices.foldl watch seen
  match result with
  | .error e => ⟨m, seen, some (.error e)⟩
  | .ok () => m.run watch seen

end StackMachine.Machine

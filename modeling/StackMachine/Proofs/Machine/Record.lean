import StackMachine.Proofs.Machine.Reachable

/-!
The machines that a host gets to, with a record of how: the arguments that were loaded and all that the machine
has let known since it was configured.
-/

set_option autoImplicit false

namespace StackMachine.Machine

variable {m : Machine} {program : Program} {config : Config} {sink : Sink}

/-- A machine that a host gets to by loading, stepping and running, the arguments that it was loaded with (none
if it was not), and what it has let known.  A load that is refused gives it no arguments. -/
inductive Recorded (program : Program) (config : Config) (sink : Sink) :
    List Value → List Notice → Machine → Prop
  | configured : Recorded program config sink [] [] ((Machine.start program sink).withConfig config)
  | loaded {given args : List Value} {notices : List Notice} {m : Machine}
    (h : Recorded program config sink given notices m) (hload : (m.load args).result = .ok ()) :
    Recorded program config sink args (notices ++ (m.load args).notices) (m.load args).machine
  | refused {given args : List Value} {notices : List Notice} {m : Machine} {e : MachineError}
    (h : Recorded program config sink given notices m) (hload : (m.load args).result = .error e) :
    Recorded program config sink given (notices ++ (m.load args).notices) (m.load args).machine
  | step {given : List Value} {notices : List Notice} {m : Machine}
    (h : Recorded program config sink given notices m) :
    Recorded program config sink given (notices ++ m.step.notices) m.step.machine
  | finish {given : List Value} {notices : List Notice} {m : Machine}
    (h : Recorded program config sink given notices m) :
    Recorded program config sink given notices m.finish.1

theorem Recorded.reachable {given : List Value} {notices : List Notice}
    (h : Recorded program config sink given notices m) : Reachable program config sink m := by
  induction h with
  | configured => exact .configured
  | loaded _ _ ih => exact ih.load _
  | refused _ _ ih => exact ih.load _
  | step _ ih => exact ih.step
  | finish _ ih => exact ih.finish

/-- Every machine that a host gets to has such a record. -/
theorem Reachable.exists_recorded (h : Reachable program config sink m) :
    ∃ given notices, Recorded program config sink given notices m := by
  induction h with
  | configured => exact ⟨_, _, .configured⟩
  | @load m args _ ih =>
    obtain ⟨given, notices, h⟩ := ih
    cases hload : (m.load args).result with
    | ok => exact ⟨_, _, h.loaded hload⟩
    | error e => exact ⟨_, _, h.refused hload⟩
  | step _ ih =>
    obtain ⟨given, notices, h⟩ := ih
    exact ⟨_, _, h.step⟩
  | finish _ ih =>
    obtain ⟨given, notices, h⟩ := ih
    exact ⟨_, _, h.finish⟩

end StackMachine.Machine

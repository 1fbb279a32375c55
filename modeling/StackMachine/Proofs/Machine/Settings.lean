import Mathlib.Tactic.MkIffOfInductiveProp
import StackMachine.Proofs.Machine.Faults
import StackMachine.Proofs.Machine.Reachable

/-!
Machines under other settings.  Where a machine has no limit or the same one as the new settings, each of
its instructions does the same under them, or it is refused for the new limit before it has changed
anything.
-/

set_option autoImplicit false

namespace StackMachine

/-! ## Stacks under another limit -/

namespace OperandStack

variable {s : OperandStack} {limit : Nat}

/-- What another limit makes of a result: the same one, or a refusal for the new limit. -/
def Limited (s : OperandStack) (limit : Nat) (r r' : Except Cause OperandStack) : Prop :=
  r' = r.map (·.withLimit limit) ∨ ∃ n, s.limit ≠ limit ∧ r' = .error (.overflow n limit)

theorem Limited.bind {α : Type} {x : Except Cause α} {f f' : α → Except Cause OperandStack}
    (h : ∀ a, Limited s limit (f a) (f' a)) : Limited s limit (x >>= f) (x >>= f') := by
  cases x with
  | error cause => exact .inl rfl
  | ok a => exact h a

/-- A stack without a limit or with the same one has room wherever the limited one has. -/
theorem reserve_withLimit (h : s.limit = 0 ∨ s.limit = limit) (n : Nat) :
    (s.withLimit limit).reserve n = s.reserve n ∨
      s.limit ≠ limit ∧ (s.withLimit limit).reserve n = .error (.overflow n limit) := by
  by_cases hlimit : s.limit = limit
  · subst hlimit
    exact .inl rfl
  · have hzero : s.limit = 0 := h.resolve_right hlimit
    have hroom : s.reserve n = .ok () := reserve_eq_ok.2 fun hpos => by omega
    cases h' : (s.withLimit limit).reserve n with
    | ok => exact .inl hroom.symm
    | error cause =>
      rw [reserve_eq_error h']
      exact .inr ⟨hlimit, rfl⟩

theorem limited_reserve (h : s.limit = 0 ∨ s.limit = limit) (n : Nat) (t : OperandStack) :
    Limited s limit (do s.reserve n; return t)
      (do (s.withLimit limit).reserve n; return t.withLimit limit) := by
  rcases reserve_withLimit h n with hsame | ⟨hne, hfull⟩
  · rw [hsame]
    exact Limited.bind fun _ => .inl rfl
  · rw [hfull]
    exact .inr ⟨n, hne, rfl⟩

theorem limited_push (h : s.limit = 0 ∨ s.limit = limit) (v : Value) :
    Limited s limit (s.push v) ((s.withLimit limit).push v) := limited_reserve h 1 (s.put v)

theorem setLocal_withLimit (fp : Nat) (n : Word) :
    (s.withLimit limit).setLocal fp n = (s.setLocal fp n).map (·.withLimit limit) := by
  rw [setLocal, setLocal, pop, pop, withLimit]
  dsimp only
  cases s.values.topDown with
  | nil => rfl
  | cons v rest =>
    simp only [ok_bind, depth]
    cases localSlot fp n s.values.tail.height <;> rfl

end OperandStack

/-! ## Machines under another configuration -/

/-- The machine with another configuration, which goes on counting its faults. -/
def Machine.under (m : Machine) (c : Config) : Machine :=
  { m with
    config := c
    stack := m.stack.withLimit c.maxStackDepth
    reporter := { m.reporter with fatalTypeMismatch := c.fatalTypeMismatch } }

/-- What an instruction comes to, with the machine under another configuration. -/
def Execution.under (e : Execution) (c : Config) : Execution := { e with machine := e.machine.under c }

namespace Machine

open OperandStack

variable {m : Machine} {c : Config}

/-- Each limit of the machine is none or that of `c`, and so is its policy. -/
@[mk_iff]
structure Looser (m : Machine) (c : Config) : Prop where
  stack : m.stack.limit = 0 ∨ m.stack.limit = c.maxStackDepth
  calls : m.config.maxCallDepth = 0 ∨ m.config.maxCallDepth = c.maxCallDepth
  budget : m.config.maxInstructions = 0 ∨ m.config.maxInstructions = c.maxInstructions
  policy : m.reporter.fatalTypeMismatch = false ∨ m.reporter.fatalTypeMismatch = c.fatalTypeMismatch

/-- The machine has the limits and the policy of `c`. -/
@[mk_iff]
structure SameLimits (m : Machine) (c : Config) : Prop where
  stack : m.stack.limit = c.maxStackDepth
  calls : m.config.maxCallDepth = c.maxCallDepth
  budget : m.config.maxInstructions = c.maxInstructions
  policy : m.reporter.fatalTypeMismatch = c.fatalTypeMismatch

theorem Looser.fits (h : m.Looser c) (fits : (m.under c).stack.Fits) : m.stack.Fits := by
  rcases h.stack with hzero | hsame
  · intro hpos
    omega
  · intro hpos
    rw [hsame] at hpos ⊢
    exact fits hpos

/-- The refusals of an instruction for limits that the machine itself does not have. -/
inductive OverLimit (m : Machine) (c : Config) : Cause → Prop
  | room (n : Nat) (h : m.stack.limit ≠ c.maxStackDepth) : OverLimit m c (.overflow n c.maxStackDepth)
  | calls (h : m.config.maxCallDepth ≠ c.maxCallDepth) : OverLimit m c (.callDepth c.maxCallDepth)

theorem OverLimit.kind_eq {cause : Cause} (h : m.OverLimit c cause) : cause.kind = .stackOverflow := by
  cases h <;> rfl

theorem OverLimit.not_same {cause : Cause} (h : m.OverLimit c cause) : ¬ m.SameLimits c := by
  intro hsame
  cases h with
  | room _ h => exact h hsame.stack
  | calls h => exact h hsame.calls

theorem orFault_under {α : Type} (r : Except Cause α) {next next' : α → Execution}
    (h : ∀ a, next' a = (next a).under c) :
    (m.under c).orFault r next' = (m.orFault r next).under c := by
  cases r with
  | ok a => exact h a
  | error cause => rfl

theorem limited_computed (h : m.Looser c) {i : Instruction} {r : Except Cause OperandStack}
    (hr : m.computed? i = some r) :
    ∃ r', (m.under c).computed? i = some r' ∧ Limited m.stack c.maxStackDepth r r' := by
  cases i with
  | skip => cases hr; exact ⟨_, rfl, .inl rfl⟩
  | push v => cases hr; exact ⟨_, rfl, limited_push h.stack v⟩
  | constant | pushArg | pushLocal =>
    cases hr
    exact ⟨_, rfl, Limited.bind fun v => limited_push h.stack v⟩
  | drop | rotate | operate => cases hr; exact ⟨_, rfl, Limited.bind fun _ => .inl rfl⟩
  | duplicate n =>
    cases hr
    exact ⟨_, rfl, Limited.bind fun _ => limited_reserve h.stack n _⟩
  | alloc n =>
    cases hr
    refine ⟨_, rfl, ?_⟩
    cases Word.index? n with
    | none => exact .inl rfl
    | some slots => exact limited_reserve h.stack slots _
  | popLocal n => cases hr; exact ⟨_, rfl, .inl (setLocal_withLimit m.fp n)⟩
  | _ => cases hr

theorem checkCallDepth_under (h : m.Looser c) :
    (m.under c).checkCallDepth = m.checkCallDepth ∨
      m.config.maxCallDepth ≠ c.maxCallDepth
        ∧ (m.under c).checkCallDepth = .error (.callDepth c.maxCallDepth) := by
  by_cases hsame : m.config.maxCallDepth = c.maxCallDepth
  · rw [checkCallDepth, checkCallDepth, hsame]
    exact .inl rfl
  · have hzero : m.config.maxCallDepth = 0 := h.calls.resolve_right hsame
    have hfree : m.checkCallDepth = .ok () := checkCallDepth_eq_ok.2 (by omega)
    cases h' : (m.under c).checkCallDepth with
    | ok => exact .inl hfree.symm
    | error cause =>
      rw [(checkCallDepth_eq_error h').2]
      exact .inr ⟨hsame, rfl⟩

theorem checkCall_under (h : m.Looser c) (target argc : Word) :
    (m.under c).checkCall target argc = m.checkCall target argc ∨
      ∃ cause, m.OverLimit c cause ∧ (m.under c).checkCall target argc = .error cause := by
  have hip : (m.under c).jumpTarget target = m.jumpTarget target := rfl
  have hcount : (m.under c).argumentCount argc = m.argumentCount argc := rfl
  rw [checkCall, checkCall, hip, hcount]
  cases m.jumpTarget target with
  | error cause => exact .inl rfl
  | ok ip =>
    cases m.argumentCount argc with
    | error cause => exact .inl rfl
    | ok count =>
      simp only [ok_bind]
      rcases checkCallDepth_under h with hsame | ⟨hne, hfull⟩
      · rw [hsame]
        cases m.checkCallDepth with
        | error cause => exact .inl rfl
        | ok =>
          simp only [ok_bind]
          change ((m.stack.withLimit c.maxStackDepth).reserve 2 >>= _) = _ ∨
            ∃ cause, _ ∧ ((m.stack.withLimit c.maxStackDepth).reserve 2 >>= _) = _
          rcases reserve_withLimit h.stack 2 with hroom | ⟨hne, hfull⟩
          · rw [hroom]
            exact .inl rfl
          · rw [hfull]
            exact .inr ⟨_, .room 2 hne, rfl⟩
      · rw [hfull]
        exact .inr ⟨_, .calls hne, rfl⟩

theorem execute_computed_under (h : m.Looser c) {start : Nat} {i : Instruction}
    {r : Except Cause OperandStack} (hr : m.computed? i = some r) :
    (m.under c).execute start i = (m.execute start i).under c ∨
      ∃ cause, m.OverLimit c cause ∧ (m.under c).execute start i = .fault (m.under c) cause := by
  obtain ⟨r', hr', hlimited⟩ := limited_computed h hr
  rw [execute_computed hr, execute_computed hr']
  rcases hlimited with hsame | ⟨n, hne, hfull⟩
  · rw [hsame]
    cases r <;> exact .inl rfl
  · rw [hfull]
    exact .inr ⟨_, .room n hne, rfl⟩

/-- Under the limits of `c` an instruction does the same, or it is refused for one of them. -/
theorem execute_under (h : m.Looser c) (fits : (m.under c).stack.Fits) (start : Nat) (i : Instruction) :
    (m.under c).execute start i = (m.execute start i).under c ∨
      ∃ cause, m.OverLimit c cause ∧ (m.under c).execute start i = .fault (m.under c) cause := by
  cases i with
  | halt => exact .inl rfl
  | leave withResult =>
    refine .inl ?_
    cases hr : m.frameResult withResult with
    | error cause =>
      have hr' : (m.under c).frameResult withResult = .error cause := hr
      rw [execute, leave, hr', execute, leave, hr]
      rfl
    | ok result =>
      have hr' : (m.under c).frameResult withResult = .ok result := hr
      cases he : m.frameExit with
      | error cause =>
        have he' : (m.under c).frameExit = .error cause := he
        rw [execute, leave, hr', he', execute, leave, hr, he]
        rfl
      | ok exit =>
        have he' : (m.under c).frameExit = .ok exit := he
        have hcut : (m.under c).cut exit.base result =
            (m.cut exit.base result).withLimit c.maxStackDepth := by
          cases result <;> rfl
        rw [execute_leave fits start hr' he', execute_leave (h.fits fits) start hr he, hcut]
        obtain ⟨base, _ | ⟨fp, ip⟩⟩ := exit <;> rfl
  | call target argc =>
    rw [execute, call, execute, call]
    rcases checkCall_under h target argc with hsame | ⟨cause, hover, hfault⟩
    · rw [hsame]
      cases m.checkCall target argc <;> exact .inl rfl
    · rw [hfault]
      exact .inr ⟨cause, hover, rfl⟩
  | lineFeed | print =>
    refine .inl ?_
    rw [execute_written rfl, execute_written rfl]
    refine orFault_under _ fun text => ?_
    have hsink : (m.under c).sink.write text = m.sink.write text := rfl
    rw [output, output, hsink]
    obtain ⟨sink, _ | failure⟩ := m.sink.write text <;> rfl
  | jump | branch | choose =>
    refine .inl ?_
    rw [execute_destination rfl, execute_destination rfl]
    exact orFault_under _ fun ip => rfl
  | _ => exact execute_computed_under h rfl

end Machine

end StackMachine

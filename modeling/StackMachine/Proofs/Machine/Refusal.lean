import StackMachine.Proofs.Machine.Effect
import StackMachine.Proofs.Text.Lines

/-!
Why an instruction is refused.  A fault lies in the operands, in a limit or in the code.  Only the check for
room, the limit on calls, the constant pools and the jump targets give faults of the last two origins, so
everything else is shown to fail on its operands alone, and to say so in one line.
-/

set_option autoImplicit false

namespace StackMachine

open Text

/-- What a fault lies in. -/
inductive Cause.Origin where
  | operands | limit | code
  deriving DecidableEq

def Cause.origin : Cause → Cause.Origin
  | overflow .. | callDepth .. | budgetExhausted .. => .limit
  | noConstant .. | jumpTarget .. | unknownOpcode .. | truncated .. => .code
  | _ => .operands

/-- The words of an error that are those of the operation. -/
def ValueError.wording : ValueError → String
  | unsupported operation _ | typeMismatch operation .. => operation
  | indexOutOfRange .. | sliceOutOfRange .. => ""

/-- The words of a cause that are those of the operation. -/
def Cause.wording : Cause → String
  | value e => e.wording
  | integerExpected operation _ => operation
  | negative what _ => what
  | _ => ""

/-- The fault lies in the operands, and the operation has words of one line for it. -/
structure Cause.LiesInOperands (cause : Cause) : Prop where
  origin : cause.origin = .operands
  wording : OneLine cause.wording

/-- A check that only fails on the operands. -/
def OnOperands {α : Type} (r : Except Cause α) : Prop :=
  ∀ cause, r = .error cause → cause.LiesInOperands

namespace OnOperands

variable {α β : Type}

theorem ok (a : α) : OnOperands (.ok a) := by
  intro cause h
  cases h

theorem worded {cause : Cause} (h : cause.origin = .operands) (hwords : OneLine cause.wording) :
    OnOperands (.error cause : Except Cause α) := by
  intro cause' h'
  cases h'
  exact ⟨h, hwords⟩

/-- A fault for which the operation has no words of its own. -/
theorem error {cause : Cause} (h : cause.origin = .operands) (hwords : cause.wording = "") :
    OnOperands (.error cause : Except Cause α) := by
  refine worded h ?_
  rw [hwords]
  exact oneLine_empty

theorem bind {x : Except Cause α} {f : α → Except Cause β} (hx : OnOperands x)
    (hf : ∀ a, OnOperands (f a)) : OnOperands (x >>= f) := by
  intro cause h
  rcases bind_eq_error.1 h with h | ⟨a, -, h⟩
  · exact hx cause h
  · exact hf a cause h

theorem ite {c : Prop} [Decidable c] {x y : Except Cause α} (hx : OnOperands x)
    (hy : OnOperands y) : OnOperands (if c then x else y) := by
  by_cases hc : c
  · rw [if_pos hc]; exact hx
  · rw [if_neg hc]; exact hy

end OnOperands

/-! ## Values -/

open OnOperands

namespace Value

variable {operation : String} (v : Value)

theorem onOperands_expectInt (h : OneLine operation) : OnOperands (orCause (v.expectInt operation)) := by
  cases v with
  | int n => exact ok n
  | _ => exact worded rfl h

theorem onOperands_expectReal (h : OneLine operation) : OnOperands (orCause (v.expectReal operation)) := by
  cases v with
  | real x => exact ok x
  | _ => exact worded rfl h

theorem onOperands_expectString (h : OneLine operation) : OnOperands (orCause (v.expectString operation)) := by
  cases v with
  | string s => exact ok s
  | _ => exact worded rfl h

theorem onOperands_increment : OnOperands (orCause v.increment) := by
  have hwords : OneLine "increment" := by decide
  cases v with
  | null | string | ref => exact worded rfl hwords
  | _ => exact ok _

theorem onOperands_decrement : OnOperands (orCause v.decrement) := by
  have hwords : OneLine "decrement" := by decide
  cases v with
  | null | string | ref => exact worded rfl hwords
  | _ => exact ok _

theorem onOperands_negate : OnOperands (orCause v.negate) := by
  have hwords : OneLine "negate" := by decide
  cases v with
  | null | byte | uint | ulong | string | ref => exact worded rfl hwords
  | _ => exact ok _

end Value

namespace ByteString

theorem onOperands_octetAt (s : ByteString) (index : Word) : OnOperands (orCause (s.octetAt index)) := by
  rw [octetAt]
  cases s.octet? index with
  | some b => exact ok b
  | none => exact error rfl rfl

theorem onOperands_slice (s : ByteString) (start stop : Word) : OnOperands (orCause (s.slice start stop)) := by
  rw [slice]
  cases s.slice? start stop with
  | some t => exact ok t
  | none => exact error rfl rfl

end ByteString

/-! ## Operators and conditions -/

open Value ByteString

theorem IntUnary.oneLine_verb (op : IntUnary) : OneLine op.verb := by
  cases op <;> decide

theorem IntBinary.oneLine_verb (op : IntBinary) : OneLine op.verb := by
  cases op <;> decide

theorem RealBinary.oneLine_verb (op : RealBinary) : OneLine op.verb := by
  cases op <;> decide

theorem IntBinary.onOperands_eval (op : IntBinary) (x y : Int64) : OnOperands (op.eval x y) := by
  cases op with
  | remainder => exact ite (error rfl rfl) (ok _)
  | shiftLeft | shiftRight =>
    have hwords : OneLine "shift count" := by decide
    exact ite (worded rfl hwords) (ok _)
  | _ => exact ok _

theorem RealBinary.onOperands_eval (op : RealBinary) (x y : Float) : OnOperands (op.eval x y) := by
  cases op with
  | divide => exact ite (error rfl rfl) (ok _)
  | _ => exact ok _

theorem UnaryOperator.onOperands_apply (op : UnaryOperator) (v : Value) :
    OnOperands (op.apply v) := by
  cases op with
  | int op => exact (v.onOperands_expectInt op.oneLine_verb).bind fun _ => ok _
  | toReal => exact (v.onOperands_expectInt (by decide)).bind fun _ => ok _
  | toInt => exact (v.onOperands_expectReal (by decide)).bind fun _ => ok _
  | increment => exact v.onOperands_increment
  | decrement => exact v.onOperands_decrement
  | negate => exact v.onOperands_negate
  | length => exact (v.onOperands_expectString (by decide)).bind fun _ => ok _

theorem BinaryOperator.onOperands_apply (op : BinaryOperator) (v w : Value) :
    OnOperands (op.apply v w) := by
  cases op with
  | equal | notEqual => exact ok _
  | int op =>
    exact (v.onOperands_expectInt op.oneLine_verb).bind fun x =>
      (w.onOperands_expectInt op.oneLine_verb).bind fun y => (op.onOperands_eval x y).bind fun _ => ok _
  | real op =>
    exact (v.onOperands_expectReal op.oneLine_verb).bind fun x =>
      (w.onOperands_expectReal op.oneLine_verb).bind fun y => (op.onOperands_eval x y).bind fun _ => ok _
  | relation | threeWay =>
    exact (v.onOperands_expectReal (by decide)).bind fun _ =>
      (w.onOperands_expectReal (by decide)).bind fun _ => ok _
  | scaleUp | scaleDown =>
    exact (v.onOperands_expectReal (by decide)).bind fun _ =>
      (w.onOperands_expectInt (by decide)).bind fun _ => ok _
  | concatenate =>
    exact (v.onOperands_expectString (by decide)).bind fun _ =>
      (w.onOperands_expectString (by decide)).bind fun _ => ok _
  | octet =>
    exact (v.onOperands_expectString (by decide)).bind fun s =>
      (w.onOperands_expectInt (by decide)).bind fun i => (s.onOperands_octetAt i).bind fun _ => ok _

theorem onOperands_sliceValue (v w u : Value) : OnOperands (sliceValue v w u) :=
  (v.onOperands_expectString (by decide)).bind fun s => (w.onOperands_expectInt (by decide)).bind fun i =>
    (u.onOperands_expectInt (by decide)).bind fun j => (s.onOperands_slice i j).bind fun _ => ok _

theorem Operator.onOperands_result (op : Operator) (s : OperandStack) :
    OnOperands (op.result s) := by
  unfold Operator.result
  split
  · exact UnaryOperator.onOperands_apply _ _
  · exact BinaryOperator.onOperands_apply _ _ _
  · exact onOperands_sliceValue _ _ _
  · exact error rfl rfl

namespace OperandStack

variable {s : OperandStack}

theorem onOperands_peek (n : Nat) : OnOperands (s.peek n) := by
  rw [peek]
  split
  · exact ok _
  · exact error rfl rfl

theorem onOperands_require (n : Nat) : OnOperands (s.require n) := ite (error rfl rfl) (ok _)

theorem onOperands_argCount (fp : Nat) : OnOperands (s.argCount fp) := by
  rw [argCount]
  split
  · exact ok _
  · exact error rfl rfl

theorem onOperands_getArg (fp : Nat) (n : Word) : OnOperands (s.getArg fp n) := by
  refine (onOperands_argCount fp).bind fun count => ?_
  refine ite (error rfl rfl) ?_
  split
  · exact ok _
  · exact error rfl rfl

theorem onOperands_localSlot (fp : Nat) (n : Word) (bound : Nat) :
    OnOperands (localSlot fp n bound) := by
  rw [localSlot]
  split
  · exact ite (ok _) (error rfl rfl)
  · exact error rfl rfl

theorem onOperands_getLocal (fp : Nat) (n : Word) : OnOperands (s.getLocal fp n) := by
  refine (onOperands_localSlot fp n _).bind fun slot => ?_
  split
  · exact ok _
  · exact error rfl rfl

theorem onOperands_pop : OnOperands s.pop := by
  rw [pop]
  split
  · exact ok _
  · exact error rfl rfl

theorem onOperands_setLocal (fp : Nat) (n : Word) : OnOperands (s.setLocal fp n) :=
  onOperands_pop.bind fun _ => (onOperands_localSlot fp n _).bind fun _ => ok _

end OperandStack

theorem Condition.onOperands_truth (s : OperandStack) : OnOperands (Condition.truth s) := by
  have hwords : OneLine "test for zero" := by decide
  refine (OperandStack.onOperands_peek 0).bind fun v => ?_
  split
  · exact ok _
  · exact worded rfl hwords

theorem Condition.onOperands_evaluate (c : Condition) (s : OperandStack) :
    OnOperands (c.evaluate s) := by
  cases c with
  | zero => exact (onOperands_truth s).bind fun _ => ok _
  | nonzero => exact onOperands_truth s
  | relation r =>
    rw [evaluate, related]
    split
    · exact (onOperands_expectReal _ (by decide)).bind fun _ =>
        (onOperands_expectReal _ (by decide)).bind fun _ => ok _
    · exact error rfl rfl
  | null | notNull => exact (OperandStack.onOperands_peek 0).bind fun _ => ok _

theorem PrintForm.onOperands_text (form : PrintForm) (v : Value) : OnOperands (form.text v) := by
  cases form with
  | value => exact ok _
  | reference =>
    rw [text]
    split
    · exact ok _
    · exact error rfl rfl
  | character =>
    refine (v.onOperands_expectInt (by decide)).bind fun code => ?_
    cases Word.index? code with
    | none => exact error rfl rfl
    | some n =>
      by_cases hn : n.isValidChar
      · exact (congrArg OnOperands (dif_pos hn)).mpr (ok _)
      · exact (congrArg OnOperands (dif_neg hn)).mpr (error rfl rfl)

/-! ## Instructions -/

namespace Machine

variable {m : Machine} {i : Instruction} {cause : Cause}

theorem onOperands_frameResult (withResult : Bool) : OnOperands (m.frameResult withResult) := by
  refine ite (ite (error rfl rfl) ?_) (ok _)
  intro cause h
  cases hp : m.stack.peek 0 with
  | ok v => rw [hp] at h; cases h
  | error cause' =>
    rw [hp] at h
    cases h
    exact OperandStack.onOperands_peek 0 _ hp

theorem onOperands_frameExit : OnOperands m.frameExit := by
  refine ite (ok _) ?_
  split
  · refine (OperandStack.onOperands_argCount m.fp).bind fun count => ?_
    split
    · exact error rfl rfl
    · refine ite (error rfl rfl) (ite (ok _) ?_)
      split
      · exact error rfl rfl
      · refine ite (error rfl rfl) ?_
        split
        · exact ok _
        · exact error rfl rfl
  · exact error rfl rfl

/-- Where the fault of an instruction comes from. -/
inductive Refusal (m : Machine) (i : Instruction) (cause : Cause) : Prop
  | operands (h : cause.LiesInOperands)
  | room {n : Nat} (h : m.stack.reserve n = .error cause)
  | calls (hi : ∃ target argc, i = .call target argc) (hpos : 0 < m.config.maxCallDepth)
    (h : cause = .callDepth m.config.maxCallDepth)
  | constant {pool : Program.PoolName} {index : Word} (hi : i = .constant pool index)
    (h : m.constant pool index = .error cause)
  | target {target : Word} (hi : target ∈ i.targets) (h : m.jumpTarget target = .error cause)

theorem refusal_push {r : Except Cause Value}
    (hr : ∀ cause, r = .error cause → m.Refusal i cause)
    (h : (do m.stack.push (← r)) = .error cause) : m.Refusal i cause := by
  rcases bind_eq_error.1 h with h | ⟨v, -, h⟩
  · exact hr cause h
  · exact .room (OperandStack.push_eq_error.1 h)

theorem refusal_computed (h : m.computed? i = some (.error cause)) : m.Refusal i cause := by
  have hop : ∀ {α : Type} {r : Except Cause α}, OnOperands r → r = .error cause → m.Refusal i cause :=
    fun hr h => .operands (hr cause h)
  cases i with
  | push v => exact refusal_push (r := .ok v) (fun _ h => by cases h) (Option.some.inj h)
  | constant pool index => exact refusal_push (fun _ h => .constant rfl h) (Option.some.inj h)
  | pushArg n =>
    exact refusal_push (fun _ h => .operands (OperandStack.onOperands_getArg m.fp n _ h))
      (Option.some.inj h)
  | pushLocal n =>
    exact refusal_push (fun _ h => .operands (OperandStack.onOperands_getLocal m.fp n _ h))
      (Option.some.inj h)
  | drop =>
    exact hop ((OperandStack.onOperands_require 1).bind fun _ => ok _) (Option.some.inj h)
  | rotate n k =>
    exact hop ((OperandStack.onOperands_require n).bind fun _ => ok _) (Option.some.inj h)
  | operate op => exact hop ((op.onOperands_result m.stack).bind fun _ => ok _) (Option.some.inj h)
  | popLocal n => exact hop (OperandStack.onOperands_setLocal m.fp n) (Option.some.inj h)
  | duplicate n =>
    rcases bind_eq_error.1 (Option.some.inj h) with h | ⟨_, -, h⟩
    · exact hop (OperandStack.onOperands_require n) h
    · rcases bind_eq_error.1 h with h | ⟨_, -, h⟩
      · exact .room h
      · cases h
  | alloc n =>
    have halloc := Option.some.inj h
    split at halloc
    · rcases bind_eq_error.1 halloc with h | ⟨_, -, h⟩
      · exact .room h
      · cases h
    · cases halloc
      exact .operands ⟨rfl, (by decide : OneLine "local slot count")⟩
  | _ => cases h

theorem onOperands_written {r : Except Cause String} (h : m.written? i = some r) : OnOperands r := by
  cases i with
  | lineFeed => cases h; exact ok _
  | print form newline =>
    cases h
    refine (OperandStack.onOperands_peek 0).bind fun v => ?_
    exact (form.onOperands_text v).bind fun _ => ok _
  | _ => cases h

/-- A jump fails for a target that it has, or on the operands of its condition. -/
theorem destination?_eq_error (h : m.destination? i = some (.error cause)) :
    (∃ target ∈ i.targets, m.jumpTarget target = .error cause) ∨ cause.LiesInOperands := by
  cases i with
  | jump target => exact .inl ⟨target, List.mem_singleton_self _, Option.some.inj h⟩
  | branch c target =>
    rcases bind_eq_error.1 (Option.some.inj h) with h | ⟨ip, -, h⟩
    · exact .inl ⟨target, List.mem_singleton_self _, h⟩
    · exact .inr ((c.onOperands_evaluate m.stack).bind (fun _ => ok _) cause h)
  | choose c target otherwise =>
    rcases bind_eq_error.1 (Option.some.inj h) with h | ⟨ip, -, h⟩
    · exact .inl ⟨target, List.mem_cons_self, h⟩
    · rcases bind_eq_error.1 h with h | ⟨other, -, h⟩
      · exact .inl ⟨otherwise, List.mem_cons_of_mem _ (List.mem_singleton_self _), h⟩
      · exact .inr ((c.onOperands_evaluate m.stack).bind (fun _ => ok _) cause h)
  | _ => cases h

theorem onOperands_argumentCount (argc : Word) : OnOperands (m.argumentCount argc) := by
  have hwords : OneLine "argument count" := by decide
  rw [argumentCount]
  split
  · exact worded rfl hwords
  · exact ite (error rfl rfl) (ok _)

theorem checkCallDepth_eq_error (h : m.checkCallDepth = .error cause) :
    0 < m.config.maxCallDepth ∧ cause = .callDepth m.config.maxCallDepth := by
  rw [checkCallDepth] at h
  split at h
  · next hfull =>
    cases h
    exact ⟨hfull.1, rfl⟩
  · cases h

theorem refusal_call {target argc : Word} (h : m.checkCall target argc = .error cause) :
    m.Refusal (.call target argc) cause := by
  rcases bind_eq_error.1 h with h | ⟨ip, -, h⟩
  · exact .target (List.mem_singleton_self _) h
  · rcases bind_eq_error.1 h with h | ⟨count, -, h⟩
    · exact .operands (onOperands_argumentCount argc cause h)
    · rcases bind_eq_error.1 h with h | ⟨_, -, h⟩
      · obtain ⟨hpos, h⟩ := checkCallDepth_eq_error h
        exact .calls ⟨_, _, rfl⟩ hpos h
      · rcases bind_eq_error.1 h with h | ⟨_, -, h⟩
        · exact .room h
        · cases h

theorem Refuses.refusal (h : m.Refuses i cause) : m.Refusal i cause := by
  cases h with
  | computing h => exact refusal_computed h
  | writing h => exact .operands (onOperands_written h cause rfl)
  | going h =>
    rcases destination?_eq_error h with ⟨target, hi, h⟩ | h
    · exact .target hi h
    · exact .operands h
  | calling hi h => subst hi; exact refusal_call h
  | returning _ h => exact .operands (onOperands_frameResult _ cause h)
  | leaving _ h => exact .operands (onOperands_frameExit cause h)

end Machine

end StackMachine

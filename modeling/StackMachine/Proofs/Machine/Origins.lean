import StackMachine.Proofs.Machine.Kinds
import StackMachine.Proofs.Machine.Record
import StackMachine.Proofs.Program.Table

/-!
Where the values on the stack come from.  A program makes values of five kinds by itself.  It copies all others
from what it was given, and may count and negate the numbers among them; a reference stays the one that it is.
-/

set_option autoImplicit false

namespace StackMachine

/-- The kinds of the values that a program makes by itself. -/
def ValueKind.isNative (kind : ValueKind) : Bool := kind ∈ [.null, .int, .real, .byte, .string]

/-- A program that is given `given` can get to the value. -/
structure Value.Sourced (given : List Value) (v : Value) : Prop where
  mem_of_ref : v.kind = .ref → v ∈ given
  kind : v.kind.isNative = true ∨ ∃ w ∈ given, w.kind = v.kind

variable {given others : List Value} {v w : Value}

theorem Value.sourced_of_mem (h : v ∈ given) : v.Sourced given := ⟨fun _ => h, .inr ⟨v, h, rfl⟩⟩

theorem Value.sourced_of_isNative (h : v.kind.isNative = true) : v.Sourced given := by
  refine ⟨fun href => ?_, .inl h⟩
  rw [href] at h
  cases h

theorem Value.sourced_of_kind_eq (h : w ∈ given) (hkind : w.kind = v.kind) (hw : w.kind ≠ .ref) :
    v.Sourced given :=
  ⟨fun href => absurd (hkind.trans href) hw, .inr ⟨w, h, hkind⟩⟩

theorem Value.Sourced.trans (h : v.Sourced others) (hothers : ∀ w ∈ others, w.Sourced given) :
    v.Sourced given := by
  constructor
  case mem_of_ref => exact fun href => (hothers v (h.mem_of_ref href)).mem_of_ref href
  case kind =>
    rcases h.kind with hnative | ⟨w, hw, hkind⟩
    · exact .inl hnative
    · rw [← hkind]
      exact (hothers w hw).kind

/-! ## Results of operators -/

theorem Operator.native_or_kept (op : Operator) :
    (∃ kind, op.signature.result = some kind ∧ kind.isNative = true)
      ∨ ∃ demand, op.signature = ⟨[demand], none⟩ ∧ demand.accepts .ref = false := by
  cases op with
  | unary op =>
    cases op with
    | increment | decrement | negate => exact .inr ⟨_, rfl, rfl⟩
    | _ => exact .inl ⟨_, rfl, rfl⟩
  | binary op => cases op <;> exact .inl ⟨_, rfl, rfl⟩
  | slice => exact .inl ⟨_, rfl, rfl⟩

/-- The result of an operator is of a kind of its own, or of that of a number on the stack. -/
theorem Operator.sourced_result {op : Operator} {m : Machine} (h : op.result m.stack = .ok v) :
    v.Sourced m.stack.toList := by
  obtain ⟨rest, operands, hs, hlength⟩ := OperandStack.exists_operands (Machine.result_arity_le h)
  have hanswers := op.answers hs hlength
  rw [h] at hanswers
  cases hanswers with
  | computed haccepts hk =>
    rcases op.native_or_kept with ⟨kind, hresult, hnative⟩ | ⟨demand, hsig, href⟩
    · refine Value.sourced_of_isNative ?_
      rw [hk, Signature.resultKind, hresult]
      exact hnative
    · rw [← op.arity_signature, hsig] at hlength
      obtain ⟨w, rfl⟩ := List.length_eq_one_iff.1 hlength
      rw [hsig] at haccepts hk
      have hw : demand.accepts w.kind = true := by simpa [Signature.accepts] using haccepts
      refine Value.sourced_of_kind_eq (w := w) (by simp [hs]) hk.symm fun hkind => ?_
      rw [hkind, href] at hw
      cases hw

/-! ## Values that are read from the stack -/

namespace OperandStack

variable {s t : OperandStack} {fp n : Nat} {index : Word}

theorem mem_of_get? (h : s.get? n = some v) : v ∈ s.toList := by
  rw [get?_eq_getElem?] at h
  exact List.mem_of_getElem? h

theorem mem_of_peek (h : s.peek n = .ok v) : v ∈ s.toList := by
  rw [peek] at h
  split at h
  · next hget =>
    cases h
    exact List.mem_reverse.2 (List.mem_of_getElem? hget)
  · cases h

theorem mem_of_getArg (h : s.getArg fp index = .ok v) : v ∈ s.toList := by
  obtain ⟨count, -, h⟩ := bind_eq_ok.1 h
  dsimp only at h
  split at h
  · cases h
  · split at h
    · next hget =>
      cases h
      split at hget
      · exact mem_of_get? hget
      · cases hget
    · cases h

theorem mem_of_getLocal (h : s.getLocal fp index = .ok v) : v ∈ s.toList := by
  obtain ⟨slot, -, h⟩ := bind_eq_ok.1 h
  split at h
  · next hget =>
    cases h
    exact mem_of_get? hget
  · cases h

theorem mem_of_rotateLeft {items : List Value} {k : Nat} (h : v ∈ items.rotateLeft k) : v ∈ items := by
  rw [List.rotateLeft] at h
  split at h
  · exact h
  · rcases List.mem_append.1 h with h | h
    · exact List.mem_of_mem_drop h
    · exact List.mem_of_mem_take h

theorem mem_of_rotate {k : Nat} (h : s.rotate n k = .ok t) (hv : v ∈ t.toList) : v ∈ s.toList := by
  obtain ⟨-, rfl⟩ := rotate_eq_ok.1 h
  rw [toList, Pile.toList_pile, List.reverse_reverse] at hv
  rcases List.mem_append.1 hv with hv | hv
  · rw [Pile.toList_drop] at hv
    exact List.mem_of_mem_take hv
  · have hv := mem_of_rotateLeft hv
    exact List.mem_reverse.2 (List.mem_of_mem_take (List.mem_reverse.1 hv))

theorem mem_of_duplicate (h : s.duplicate n = .ok t) (hv : v ∈ t.toList) : v ∈ s.toList := by
  obtain ⟨-, -, rfl⟩ := duplicate_eq_ok.1 h
  rw [toList, Pile.toList_pile] at hv
  rcases List.mem_append.1 hv with hv | hv
  · exact hv
  · exact List.mem_reverse.2 (List.mem_of_mem_take (List.mem_reverse.1 hv))

theorem mem_of_mem_drop (h : v ∈ (s.drop n).toList) : v ∈ s.toList := by
  rw [toList_drop] at h
  exact List.mem_of_mem_take h

theorem mem_of_setLocal (h : s.setLocal fp index = .ok t) (hv : v ∈ t.toList) : v ∈ s.toList := by
  obtain ⟨w, slot, hpeek, -, rfl⟩ := setLocal_eq_ok.1 h
  rw [toList, Pile.toList_set] at hv
  rcases List.mem_or_eq_of_mem_set hv with hv | rfl
  · exact mem_of_mem_drop hv
  · exact mem_of_peek hpeek

end OperandStack

namespace Machine

variable {m : Machine} {i : Instruction} {s : OperandStack} {start : Nat}

/-! ## One instruction -/

theorem isNative_of_push {op : Opcode} {a b : Word} (h : op.instruction a b = .push v) :
    v.kind.isNative = true := by
  cases op <;> cases h <;> rfl

theorem isNative_constant {pool : Program.PoolName} {index : Word} (h : m.constant pool index = .ok v) :
    v.kind.isNative = true := by
  have hanswers := answers_constant m pool index
  rw [h] at hanswers
  cases hanswers with
  | computed _ hk =>
    rw [hk]
    cases pool <;> rfl

theorem sourced_push {r : Except Cause Value} (hr : ∀ v, r = .ok v → v.Sourced m.stack.toList)
    (h : (do m.stack.push (← r)) = .ok s) : ∀ v ∈ s.toList, v.Sourced m.stack.toList := by
  obtain ⟨v, hv, h⟩ := bind_eq_ok.1 h
  obtain ⟨-, rfl⟩ := OperandStack.push_eq_ok.1 h
  simp only [OperandStack.toList_put, List.mem_append, List.mem_singleton]
  rintro w (hw | rfl)
  · exact Value.sourced_of_mem hw
  · exact hr w hv

/-- Every value on the stack that an instruction computes comes from the stack before it. -/
theorem computed_sourced {op : Opcode} {a b : Word} (h : m.computed? (op.instruction a b) = some (.ok s))
    (hv : v ∈ s.toList) : v.Sourced m.stack.toList := by
  generalize hi : op.instruction a b = i at h
  cases i with
  | skip =>
    cases h
    exact Value.sourced_of_mem hv
  | push w =>
    refine sourced_push (r := .ok w) (fun v hv => ?_) (Option.some.inj h) v hv
    cases hv
    exact Value.sourced_of_isNative (isNative_of_push hi)
  | constant pool index =>
    exact sourced_push (fun v hv => Value.sourced_of_isNative (isNative_constant hv)) (Option.some.inj h) v hv
  | pushArg n =>
    have hget : ∀ w, m.stack.getArg m.fp n = .ok w → w.Sourced m.stack.toList :=
      fun w hw => Value.sourced_of_mem (OperandStack.mem_of_getArg hw)
    exact sourced_push hget (Option.some.inj h) v hv
  | pushLocal n =>
    have hget : ∀ w, m.stack.getLocal m.fp n = .ok w → w.Sourced m.stack.toList :=
      fun w hw => Value.sourced_of_mem (OperandStack.mem_of_getLocal hw)
    exact sourced_push hget (Option.some.inj h) v hv
  | drop =>
    obtain ⟨-, rfl⟩ := OperandStack.discard_eq_ok.1 (Option.some.inj h)
    exact Value.sourced_of_mem (OperandStack.mem_of_mem_drop hv)
  | duplicate n => exact Value.sourced_of_mem (OperandStack.mem_of_duplicate (Option.some.inj h) hv)
  | rotate n k => exact Value.sourced_of_mem (OperandStack.mem_of_rotate (Option.some.inj h) hv)
  | popLocal n => exact Value.sourced_of_mem (OperandStack.mem_of_setLocal (Option.some.inj h) hv)
  | operate op =>
    obtain ⟨w, hw, hput⟩ := bind_eq_ok.1 (Option.some.inj h)
    cases hput
    rw [OperandStack.toList_put] at hv
    rcases List.mem_append.1 hv with hv | hv
    · exact Value.sourced_of_mem (OperandStack.mem_of_mem_drop hv)
    · rw [List.mem_singleton.1 hv]
      exact op.sourced_result hw
  | alloc n =>
    rw [computed?] at h
    cases hn : Word.index? n with
    | none => simp [hn] at h
    | some slots =>
      rw [hn] at h
      obtain ⟨-, rfl⟩ := OperandStack.alloc_eq_ok.1 (Option.some.inj h)
      rw [OperandStack.toList, Pile.toList_pile] at hv
      rcases List.mem_append.1 hv with hv | hv
      · exact Value.sourced_of_mem hv
      · rw [List.eq_of_mem_replicate (List.mem_reverse.1 hv)]
        exact Value.sourced_of_isNative rfl
  | _ => cases h

theorem mem_of_frameResult {withResult : Bool} {result : Option Value}
    (h : m.frameResult withResult = .ok result) (hv : v ∈ result.toList) : v ∈ m.stack.toList := by
  cases withResult with
  | false =>
    cases h
    cases hv
  | true =>
    obtain ⟨-, w, hpeek, rfl⟩ := frameResult_true_eq_ok.1 h
    rw [List.mem_singleton.1 hv]
    exact OperandStack.mem_of_peek hpeek

theorem mem_of_mem_cut {withResult : Bool} {result : Option Value} {base : Nat}
    (h : m.frameResult withResult = .ok result) (hv : v ∈ (m.cut base result).toList) : v ∈ m.stack.toList := by
  rw [toList_cut] at hv
  rcases List.mem_append.1 hv with hv | hv
  · exact List.mem_of_mem_take hv
  · exact mem_of_frameResult h hv

theorem Executes.sourced {op : Opcode} {a b : Word} {e : Execution}
    (h : m.Executes start (op.instruction a b) e) (hv : v ∈ e.machine.stack.toList) :
    v.Sourced m.stack.toList := by
  cases h with
  | refused | unwritten | halted => exact Value.sourced_of_mem hv
  | written | went => exact Value.sourced_of_mem (OperandStack.mem_of_mem_drop hv)
  | computed h => exact computed_sourced h hv
  | called =>
    -- The number of arguments and the link are the only values that no operand accounts for.
    simp only [enter, OperandStack.toList_put, List.mem_append, List.mem_singleton] at hv
    rcases hv with (hv | rfl) | rfl
    · exact Value.sourced_of_mem hv
    · exact Value.sourced_of_isNative rfl
    · exact Value.sourced_of_isNative rfl
  | resumed _ hr => exact Value.sourced_of_mem (mem_of_mem_cut hr hv)
  | finished _ hr => exact Value.sourced_of_mem (mem_of_mem_cut hr hv)

theorem step_sourced (fits : m.stack.Fits) (hv : v ∈ m.step.machine.stack.toList) :
    v.Sourced m.stack.toList := by
  cases lands fits with
  | stays executed count sink state h =>
    rw [h] at hv
    exact Value.sourced_of_mem hv
  | @executes d e _ he _ count sink state h =>
    rw [h] at hv
    exact he.sourced hv

/-! ## Whole runs -/

section Recorded

variable {program : Program} {config : Config} {sink : Sink} {args : List Value} {notices : List Notice}

theorem sourced_of_loaded (hload : (m.load args).result = .ok ())
    (hv : v ∈ (m.load args).machine.stack.toList) : v.Sourced args := by
  rcases load_cases m args with ⟨e, h⟩ | ⟨-, -, hempty, stack, rfl, h⟩
  · rw [h] at hload
    cases hload
  · have hnil : m.stack.toList = [] := List.eq_nil_of_length_eq_zero ((OperandStack.length_toList _).trans hempty)
    rw [h] at hv
    change v ∈ (m.stack.values.pile (loaderFrame args)).toList at hv
    have hnone : m.stack.values.toList = [] := hnil
    rw [Pile.toList_pile, hnone, List.nil_append, List.mem_reverse, loaderFrame] at hv
    rcases List.mem_cons.1 hv with rfl | hv
    · exact Value.sourced_of_isNative rfl
    · rcases List.mem_cons.1 hv with rfl | hv
      · exact Value.sourced_of_isNative rfl
      · exact Value.sourced_of_mem hv

theorem load_eq_of_error {e : MachineError} (hload : (m.load args).result = .error e) :
    (m.load args).machine = m := by
  rcases load_cases m args with ⟨e, h⟩ | ⟨-, -, -, stack, -, h⟩
  · rw [h]
  · rw [h] at hload
    cases hload

theorem Recorded.sourced (h : Recorded program config sink args notices m) :
    ∀ v ∈ m.stack.toList, v.Sourced args := by
  induction h with
  | configured => exact nofun
  | loaded _ hload => exact fun v => sourced_of_loaded hload
  | refused _ hload ih => exact (load_eq_of_error hload).symm ▸ ih
  | step h ih => exact fun v hv => (step_sourced h.reachable.fits hv).trans ih
  | @finish _ _ m _ ih =>
    obtain ⟨sink, h⟩ := finish_machine m
    rw [h]
    exact ih

/-- References are not forged, and all values of a kind that no program makes by itself go back to an argument of
that kind. -/
theorem references_not_forged (h : Recorded program config sink args notices m) :
    (∀ v ∈ m.stack.toList, v.kind = .ref → v ∈ args)
      ∧ (∀ v ∈ m.stack.toList, v.kind.isNative = false → ∃ arg ∈ args, arg.kind = v.kind)
      ∧ ((∀ arg ∈ args, arg.kind.isNative = true) → ∀ v ∈ m.stack.toList, v.kind.isNative = true) := by
  refine ⟨fun v hv => (h.sourced v hv).mem_of_ref, fun v hv hkind => ?_, fun hargs v hv => ?_⟩
  · exact (h.sourced v hv).kind.resolve_left (by simp [hkind])
  · rcases (h.sourced v hv).kind with hkind | ⟨arg, harg, hkind⟩
    · exact hkind
    · exact hkind ▸ hargs arg harg

end Recorded

theorem references_not_forged_copied :
    ∃ notices m, Recorded ⟨#[Opcode.arg.word, 1], .empty, .empty, .empty⟩ .default .unlimited [.ref 7] notices m
      ∧ m.stack.toList = [.ref 7, .int 1, .int (-1), .ref 7]
      ∧ ∀ v ∈ m.stack.toList, v.kind = .ref → v ∈ [Value.ref 7] := by
  let program : Program := ⟨#[Opcode.arg.word, 1], .empty, .empty, .empty⟩
  let d : Decoded := ⟨.arg, 1, 0, 2⟩
  let m₀ := (Machine.start program .unlimited).withConfig .default
  let m₁ := { m₀ with
    stack := { m₀.stack with values := m₀.stack.values.pile (loaderFrame [.ref 7]) }, fp := 3 }
  have hm : (m₀.load [.ref 7]).machine = m₁ := rfl
  have hload : Recorded program .default .unlimited [.ref 7] ([] ++ (m₀.load [.ref 7]).notices) m₁ :=
    hm ▸ .loaded .configured rfl
  have hn : m₁.next? = some d :=
    next?_eq_some rfl rfl rfl (decode_of_le (Opcode.ofWord?_word .arg) (by decide))
  have hstack : m₁.step.machine.stack.toList = [.ref 7, .int 1, .int (-1), .ref 7] := by
    rw [step_of_next? hn]
    rfl
  exact ⟨_, _, hload.step, hstack, (references_not_forged hload.step).1⟩

end Machine

end StackMachine

import StackMachine.Proofs.Machine.Kinds
import StackMachine.Proofs.Machine.Limits
import StackMachine.Proofs.Program.Table

/-!
The signatures of operations.  Without limits an operation faults on too few operands and on operands of other
kinds, and else does what its signature says; the signatures of a straight piece of code compose to what the
whole of it does.
-/

set_option autoImplicit false

namespace StackMachine

/-! ## The table -/

/-- The signatures of the operations on integers, reals, values of any kind and strings, and of the constants. -/
def Opcode.signature? : Opcode → Option Signature
  | nullRef => some ⟨[], some .null⟩
  | iconst0 | iconst1 | iconst2 | iconst3 | iconst4 | iconst5 | iconst => some ⟨[], some .int⟩
  | rconst0 | rconst1 | rconst2 | rconst3 | rconst4 | rconst5 | rconst
  | rconstE | rconstPi | rconstPhi => some ⟨[], some .real⟩
  | sconst => some ⟨[], some .string⟩
  | iadd | isub | imul | imod | ishl | ishr | iand | ior | ixor | ieq | ineq =>
    some ⟨[.only .int, .only .int], some .int⟩
  | inot | icompl1 | icompl2 => some ⟨[.only .int], some .int⟩
  | radd | rsub | rmul | div => some ⟨[.only .real, .only .real], some .real⟩
  | rshl | rshr => some ⟨[.only .real, .only .int], some .real⟩
  | cmp | lt | leq | gt | geq => some ⟨[.only .real, .only .real], some .int⟩
  | eq | neq => some ⟨[.any, .any], some .int⟩
  | i2r => some ⟨[.only .int], some .real⟩
  | r2i => some ⟨[.only .real], some .int⟩
  | scat => some ⟨[.only .string, .only .string], some .string⟩
  | slen => some ⟨[.only .string], some .int⟩
  | sbyte => some ⟨[.only .string, .only .int], some .byte⟩
  | sslice => some ⟨[.only .string, .only .int, .only .int], some .string⟩
  | inc | dec => some ⟨[.number], none⟩
  | neg => some ⟨[.signedNumber], none⟩
  | _ => none

/-- The fault that operands of the right kinds may still raise. -/
def Opcode.ownFault? : Opcode → Option FaultKind
  | imod | div => some .divisionByZero
  | ishl | ishr => some .unsignedOperandExpected
  | sbyte | sslice => some .indexOutOfRange
  | iconst | rconst | sconst => some .invalidConstant
  | _ => none

theorem Opcode.signature?_instruction (op : Opcode) (a b : Word) :
    (op.instruction a b).signature? = op.signature? := by
  cases op <;> rfl

theorem Opcode.ownFault?_instruction (op : Opcode) (a b : Word) :
    (op.instruction a b).ownFault? = op.ownFault? := by
  cases op <;> rfl

theorem Opcode.ownFault?_ne {op : Opcode} {kind : FaultKind} (h : op.ownFault? = some kind) :
    kind ≠ .stackUnderflow ∧ kind ≠ .typeMismatch := by
  cases op <;> cases h <;> exact ⟨nofun, nofun⟩

namespace Signature

variable {sig : Signature} {kinds kinds' below : List ValueKind} {kind : FaultKind}

/-- The kinds of the operands among those of a stack. -/
def operandKinds (sig : Signature) (kinds : List ValueKind) : List ValueKind :=
  kinds.drop (kinds.length - sig.arity)

/-- What an operation with the signature makes of a stack with values of these kinds, from the bottom to the
top. -/
def apply (sig : Signature) (kinds : List ValueKind) : Except FaultKind (List ValueKind) :=
  if kinds.length < sig.arity then .error .stackUnderflow
  else if sig.accepts (sig.operandKinds kinds) then
    .ok (kinds.take (kinds.length - sig.arity) ++ [sig.resultKind (sig.operandKinds kinds)])
  else .error .typeMismatch

def applyAll (sigs : List Signature) (kinds : List ValueKind) : Except FaultKind (List ValueKind) :=
  sigs.foldlM (fun kinds sig => sig.apply kinds) kinds

/-- The signature with number `n` is the first that does not fit, which is a fault of this kind. -/
def MisfitsAt (sigs : List Signature) (kinds : List ValueKind) (n : Nat) (kind : FaultKind) : Prop :=
  ∃ sig kinds', applyAll (sigs.take n) kinds = .ok kinds' ∧ sigs[n]? = some sig ∧ sig.apply kinds' = .error kind

theorem operandKinds_append (h : sig.arity ≤ kinds.length) :
    sig.operandKinds (below ++ kinds) = sig.operandKinds kinds := by
  rw [operandKinds, operandKinds, List.length_append, Nat.add_sub_assoc h, List.drop_length_add_append]

theorem apply_of_lt (h : kinds.length < sig.arity) : sig.apply kinds = .error .stackUnderflow := if_pos h

theorem apply_of_accepts (h : sig.arity ≤ kinds.length)
    (haccepts : sig.accepts (sig.operandKinds kinds) = true) :
    sig.apply kinds =
      .ok (kinds.take (kinds.length - sig.arity) ++ [sig.resultKind (sig.operandKinds kinds)]) := by
  rw [apply, if_neg (Nat.not_lt.2 h), if_pos haccepts]

theorem apply_of_rejects (h : sig.arity ≤ kinds.length)
    (haccepts : sig.accepts (sig.operandKinds kinds) = false) : sig.apply kinds = .error .typeMismatch := by
  rw [apply, if_neg (Nat.not_lt.2 h), if_neg (by rw [haccepts]; nofun)]

theorem apply_eq_ok (h : sig.apply kinds = .ok kinds') :
    sig.arity ≤ kinds.length ∧ sig.accepts (sig.operandKinds kinds) = true
      ∧ kinds' = kinds.take (kinds.length - sig.arity) ++ [sig.resultKind (sig.operandKinds kinds)] := by
  rcases Nat.lt_or_ge kinds.length sig.arity with hlt | hle
  · rw [apply_of_lt hlt] at h
    cases h
  · cases haccepts : sig.accepts (sig.operandKinds kinds) with
    | false =>
      rw [apply_of_rejects hle haccepts] at h
      cases h
    | true =>
      rw [apply_of_accepts hle haccepts] at h
      cases h
      exact ⟨hle, rfl, rfl⟩

theorem applyAll_cons {sigs : List Signature} :
    applyAll (sig :: sigs) kinds = (do applyAll sigs (← sig.apply kinds)) := by
  rw [applyAll, List.foldlM_cons]
  rfl

theorem MisfitsAt.succ {sigs : List Signature} {n : Nat} (h : sig.apply kinds = .ok kinds')
    (hn : MisfitsAt sigs kinds' n kind) : MisfitsAt (sig :: sigs) kinds (n + 1) kind := by
  obtain ⟨sig', kinds'', happly, hsig, herror⟩ := hn
  refine ⟨sig', kinds'', ?_, hsig, herror⟩
  rw [List.take_succ_cons, applyAll_cons, h]
  exact happly

end Signature

namespace Machine

variable {m : Machine} {d : Decoded} {sig : Signature}

/-! ## One step -/

/-- The kinds of the values on the stack, from the bottom to the top. -/
def kinds (m : Machine) : List ValueKind := m.stack.toList.map Value.kind

theorem length_kinds (m : Machine) : m.kinds.length = m.stack.depth := by
  rw [kinds, List.length_map, OperandStack.length_toList]

/-- What the step does that executes the operation of `d`. -/
inductive Applies (m : Machine) (d : Decoded) (sig : Signature) : Prop
  | underflowed {report : Report} (hdepth : m.stack.depth < sig.arity) (hr : m.step.reports = [report])
    (hk : report.kind = .stackUnderflow)
  | mismatched {report : Report} (hdepth : sig.arity ≤ m.stack.depth)
    (haccepts : sig.accepts (sig.operandKinds m.kinds) = false) (hr : m.step.reports = [report])
    (hk : report.kind = .typeMismatch)
  | failed {report : Report} (hdepth : sig.arity ≤ m.stack.depth)
    (haccepts : sig.accepts (sig.operandKinds m.kinds) = true) (hr : m.step.reports = [report])
    (hk : d.op.ownFault? = some report.kind)
  | computed {v : Value} (hdepth : sig.arity ≤ m.stack.depth)
    (haccepts : sig.accepts (sig.operandKinds m.kinds) = true) (hr : m.step.reports = [])
    (hk : v.kind = sig.resultKind (sig.operandKinds m.kinds))
    (hm : m.step.machine = { m.fetch d with stack := (m.stack.drop sig.arity).put v })

theorem step_of_computed {r : Except Cause OperandStack} (hn : m.next? = some d)
    (h : (m.fetch d).computed? d.instruction = some r) :
    (∀ cause, r = .error cause → ∃ report, m.step.reports = [report] ∧ report.kind = cause.kind) ∧
      ∀ s, r = .ok s → m.step.reports = [] ∧ m.step.machine = { m.fetch d with stack := s } := by
  constructor
  · rintro cause rfl
    exact ⟨_, (step_of_fault hn (execute_computed h)).2, rfl⟩
  · rintro s rfl
    have hstep := step_of_next? hn
    rw [execute_computed h] at hstep
    obtain ⟨hm, hr⟩ := step_of_untrapped hstep (.computed h) rfl
    exact ⟨hr, hm⟩

theorem step_applies (hlimit : m.stack.limit = 0) (hn : m.next? = some d)
    (hsig : d.op.signature? = some sig) : m.Applies d sig := by
  have hsig' : d.instruction.signature? = some sig := (d.op.signature?_instruction _ _).trans hsig
  rcases Nat.lt_or_ge m.stack.depth sig.arity with hlt | hle
  · obtain ⟨hfault, -⟩ := step_of_computed hn (computed?_of_lt (m := m.fetch d) hsig' hlt)
    obtain ⟨report, hr, hk⟩ := hfault _ rfl
    exact .underflowed hlt hr hk
  · obtain ⟨rest, operands, hs, hlength⟩ := OperandStack.exists_operands hle
    obtain ⟨r, hr, hanswers⟩ := computed?_answers (m := m.fetch d) hlimit hsig' hs hlength
    obtain ⟨hfault, hdone⟩ := step_of_computed hn hr
    rw [Decoded.instruction, d.op.ownFault?_instruction] at hanswers
    have hkinds : sig.operandKinds m.kinds = operands.map Value.kind := by
      rw [kinds, hs, List.map_append, Signature.operandKinds_append]
      · rw [Signature.operandKinds, List.length_map, hlength, Nat.sub_self, List.drop_zero]
      · exact Nat.le_of_eq (hlength.symm.trans (List.length_map _).symm)
    rw [← hkinds] at hanswers
    cases hanswers with
    | mismatched haccepts hk =>
      obtain ⟨report, hr, hkind⟩ := hfault _ rfl
      exact .mismatched hle haccepts hr (hkind.trans hk)
    | failed haccepts hk =>
      obtain ⟨report, hr, hkind⟩ := hfault _ rfl
      exact .failed hle haccepts hr (hkind ▸ hk)
    | computed haccepts hk =>
      obtain ⟨hr, hm⟩ := hdone _ rfl
      exact .computed hle haccepts hr hk hm

/-- The step raises faults just for the reasons that the signature gives, and otherwise puts one value of the
kind of the result in the place of the operands, or raises the fault that is the operation's own. -/
structure Exact (m : Machine) (d : Decoded) (sig : Signature) : Prop where
  underflow : (∃ report ∈ m.step.reports, report.kind = .stackUnderflow) ↔ m.stack.depth < sig.arity
  mismatch : (∃ report ∈ m.step.reports, report.kind = .typeMismatch) ↔
    sig.arity ≤ m.stack.depth ∧ sig.accepts (sig.operandKinds m.kinds) = false
  otherwise : sig.arity ≤ m.stack.depth → sig.accepts (sig.operandKinds m.kinds) = true →
    (∃ report, m.step.reports = [report] ∧ d.op.ownFault? = some report.kind) ∨
      m.step.reports = [] ∧ ∃ v, v.kind = sig.resultKind (sig.operandKinds m.kinds)
        ∧ m.step.machine.stack.toList = m.stack.toList.take (m.stack.depth - sig.arity) ++ [v]

theorem Applies.exact (h : m.Applies d sig) : m.Exact d sig := by
  cases h with
  | underflowed hdepth hr hk =>
    have hle := Nat.not_le.2 hdepth
    exact ⟨by simp [hr, hk, hdepth], by simp [hr, hk, hle], fun h => absurd h hle⟩
  | mismatched hdepth haccepts hr hk =>
    exact ⟨by simp [hr, hk, hdepth], by simp [hr, hk, hdepth, haccepts], by simp [haccepts]⟩
  | failed hdepth haccepts hr hk =>
    obtain ⟨hunder, hmismatch⟩ := Opcode.ownFault?_ne hk
    exact ⟨by simp [hr, hunder, hdepth], by simp [hr, hmismatch, haccepts], fun _ _ => .inl ⟨_, hr, hk⟩⟩
  | computed hdepth haccepts hr hk hm =>
    refine ⟨by simp [hr, hdepth], by simp [hr, haccepts], fun _ _ => .inr ⟨hr, _, hk, ?_⟩⟩
    rw [hm]
    exact (OperandStack.toList_put _ _).trans (congrArg (· ++ _) (OperandStack.toList_drop _ _))

/-! ## Straight pieces of code -/

/-- The operations `ops` with their operands follow one another in the code from `ip` on. -/
def Straight (code : Array Word) : Nat → List Opcode → Prop
  | _, [] => True
  | ip, op :: ops =>
    (∃ word, code[ip]? = some word ∧ Opcode.ofWord? word = some op) ∧ ip + 1 + op.arity ≤ code.size
      ∧ Straight code (ip + 1 + op.arity) ops

/-- The machine raises its first fault after `n` steps, and it is of this kind. -/
def FaultsAfter (m : Machine) (n : Nat) (kind : FaultKind) : Prop :=
  (∀ k < n, (m.after k).step.reports = []) ∧
    ∃ report, (m.after n).step.reports = [report] ∧ report.kind = kind

/-- One of the operations raises a fault of its own, and it is the first fault. -/
def FailsIn (m : Machine) (ops : List Opcode) : Prop :=
  ∃ n op kind, ops[n]? = some op ∧ op.ownFault? = some kind ∧ m.FaultsAfter n kind

/-- The machine is about to execute the operations, which have the signatures `sigs`, and has no limits. -/
structure Begins (m : Machine) (ops : List Opcode) (sigs : List Signature) : Prop where
  running : m.state = .running
  unlimited : m.stack.limit = 0 ∧ m.config.maxInstructions = 0
  straight : Straight m.program.code m.ip ops
  signatures : ops.map Opcode.signature? = sigs.map some

theorem FaultsAfter.zero {report : Report} {kind : FaultKind} (hr : m.step.reports = [report])
    (hk : report.kind = kind) : m.FaultsAfter 0 kind :=
  ⟨nofun, report, hr, hk⟩

/-- What holds of a machine and of those after its next `n` steps. -/
theorem forall_after_succ {P : Machine → Prop} {n : Nat} (hm : P m)
    (h : ∀ k < n, P (m.step.machine.after k)) : ∀ k < n + 1, P (m.after k) := by
  intro k hk
  cases k with
  | zero => exact hm
  | succ k => exact h k (Nat.lt_of_succ_lt_succ hk)

theorem FaultsAfter.succ {n : Nat} {kind : FaultKind} (hr : m.step.reports = [])
    (h : m.step.machine.FaultsAfter n kind) : m.FaultsAfter (n + 1) kind :=
  ⟨forall_after_succ (P := fun m => m.step.reports = []) hr h.1, h.2⟩

theorem FailsIn.cons {op : Opcode} {ops : List Opcode} (hr : m.step.reports = [])
    (h : m.step.machine.FailsIn ops) : m.FailsIn (op :: ops) := by
  obtain ⟨n, op', kind, hop, hown, hfaults⟩ := h
  exact ⟨n + 1, op', kind, hop, hown, hfaults.succ hr⟩

theorem Begins.next {op : Opcode} {ops : List Opcode} {sigs : List Signature}
    (h : m.Begins (op :: ops) (sig :: sigs)) :
    ∃ d, m.next? = some d ∧ d.op = op ∧ op.signature? = some sig
      ∧ ∀ stack : OperandStack, stack.limit = 0 → { m.fetch d with stack }.Begins ops sigs := by
  obtain ⟨⟨word, hword, hop⟩, hle, hrest⟩ := h.straight
  obtain ⟨hsig, hsigs⟩ := List.cons.inj h.signatures
  have hbudget : m.isBudgetExhausted = false := by simp [isBudgetExhausted, h.unlimited.2]
  have hn := next?_eq_some h.running hword hbudget (decode_of_le hop hle)
  exact ⟨_, hn, rfl, hsig, fun stack hstack => ⟨h.running, ⟨hstack, h.unlimited.2⟩, hrest, hsigs⟩⟩

/-- An operation whose operands lie in the upper part of the stack leaves the lower part alone. -/
theorem Applies.of_apply_ok (h : m.Applies d sig) {below top : List Value} {kinds : List ValueKind}
    (hs : m.stack.toList = below ++ top) (hkinds : sig.apply (top.map Value.kind) = .ok kinds) :
    (∃ report, m.step.reports = [report] ∧ d.op.ownFault? = some report.kind) ∨
      m.step.reports = [] ∧ ∃ stack top', m.step.machine = { m.fetch d with stack }
        ∧ stack.limit = m.stack.limit ∧ stack.toList = below ++ top' ∧ top'.map Value.kind = kinds := by
  obtain ⟨hle, haccepts, rfl⟩ := Signature.apply_eq_ok hkinds
  have hdepth : m.stack.depth = below.length + top.length := by
    rw [← OperandStack.length_toList, hs, List.length_append]
  have hoperands : sig.operandKinds m.kinds = sig.operandKinds (top.map Value.kind) := by
    rw [Machine.kinds, hs, List.map_append, Signature.operandKinds_append hle]
  rw [List.length_map] at hle
  cases h with
  | underflowed hlt => omega
  | mismatched _ hrejects =>
    rw [hoperands, haccepts] at hrejects
    cases hrejects
  | failed _ _ hr hk => exact .inl ⟨_, hr, hk⟩
  | @computed v _ _ hr hk hm =>
    refine .inr ⟨hr, _, top.take (top.length - sig.arity) ++ [v], hm, rfl, ?_, ?_⟩
    · rw [OperandStack.toList_put, OperandStack.toList_drop, hs, hdepth, Nat.add_sub_assoc hle,
        List.take_length_add_append, List.append_assoc]
    · rw [List.map_append, List.map_take, List.length_map, List.map_singleton, hk, hoperands]

theorem Applies.of_apply_error (h : m.Applies d sig) {kind : FaultKind}
    (hkinds : sig.apply m.kinds = .error kind) : ∃ report, m.step.reports = [report] ∧ report.kind = kind := by
  cases h with
  | underflowed hlt hr hk =>
    rw [Signature.apply_of_lt (m.length_kinds.symm ▸ hlt)] at hkinds
    cases hkinds
    exact ⟨_, hr, hk⟩
  | mismatched hle hrejects hr hk =>
    rw [Signature.apply_of_rejects (m.length_kinds.symm ▸ hle) hrejects] at hkinds
    cases hkinds
    exact ⟨_, hr, hk⟩
  | failed hle haccepts | computed hle haccepts =>
    rw [Signature.apply_of_accepts (m.length_kinds.symm ▸ hle) haccepts] at hkinds
    cases hkinds

theorem Begins.wellTyped {ops : List Opcode} {sigs : List Signature} (h : m.Begins ops sigs)
    {below top : List Value} {kinds : List ValueKind} (hs : m.stack.toList = below ++ top)
    (hkinds : Signature.applyAll sigs (top.map Value.kind) = .ok kinds) :
    m.FailsIn ops ∨ (∀ k < ops.length, (m.after k).step.reports = []) ∧
      ∃ top', (m.after ops.length).stack.toList = below ++ top' ∧ top'.map Value.kind = kinds := by
  -- The induction carries `below` along: an operation whose operands lie in `top` leaves it alone.
  induction ops generalizing m sigs top with
  | nil =>
    cases sigs with
    | nil =>
      cases hkinds
      exact .inr ⟨nofun, top, hs, rfl⟩
    | cons => cases h.signatures
  | cons op ops ih =>
    cases sigs with
    | nil => cases h.signatures
    | cons sig sigs =>
      obtain ⟨d, hn, rfl, hsig, hbegins⟩ := h.next
      rw [Signature.applyAll_cons] at hkinds
      obtain ⟨kinds₁, happly, hrest⟩ := bind_eq_ok.1 hkinds
      rcases (step_applies h.unlimited.1 hn hsig).of_apply_ok hs happly with
        ⟨report, hr, hown⟩ | ⟨hr, stack, top', hm, hlimit, hs', rfl⟩
      · exact .inl ⟨0, d.op, report.kind, rfl, hown, .zero hr rfl⟩
      · have hnext := hbegins stack (hlimit.trans h.unlimited.1)
        rw [← hm] at hnext
        have hstack : m.step.machine.stack.toList = below ++ top' := by rw [hm]; exact hs'
        rcases ih hnext hstack hrest with hfails | ⟨hquiet, hdone⟩
        · exact .inl (hfails.cons hr)
        · exact .inr ⟨forall_after_succ (P := fun m => m.step.reports = []) hr hquiet, hdone⟩

theorem Begins.illTyped {ops : List Opcode} {sigs : List Signature} (h : m.Begins ops sigs) {kind : FaultKind}
    (hkinds : Signature.applyAll sigs m.kinds = .error kind) :
    m.FailsIn ops ∨ ∃ n, Signature.MisfitsAt sigs m.kinds n kind ∧ m.FaultsAfter n kind := by
  -- The first operation does not fit, or it is executed and the rest is judged by the kinds that it leaves.
  induction ops generalizing m sigs with
  | nil =>
    cases sigs with
    | nil => cases hkinds
    | cons => cases h.signatures
  | cons op ops ih =>
    cases sigs with
    | nil => cases h.signatures
    | cons sig sigs =>
      obtain ⟨d, hn, rfl, hsig, hbegins⟩ := h.next
      have happlies := step_applies h.unlimited.1 hn hsig
      rw [Signature.applyAll_cons] at hkinds
      rcases bind_eq_error.1 hkinds with happly | ⟨kinds₁, happly, hrest⟩
      · obtain ⟨report, hr, hk⟩ := happlies.of_apply_error happly
        exact .inr ⟨0, ⟨sig, m.kinds, rfl, rfl, happly⟩, .zero hr hk⟩
      · have hall : m.stack.toList = [] ++ m.stack.toList := rfl
        rcases happlies.of_apply_ok hall happly with
          ⟨report, hr, hown⟩ | ⟨hr, stack, top, hm, hlimit, hs, rfl⟩
        · exact .inl ⟨0, d.op, report.kind, rfl, hown, .zero hr rfl⟩
        · have hnext := hbegins stack (hlimit.trans h.unlimited.1)
          rw [← hm] at hnext
          have hstack : m.step.machine.kinds = top.map Value.kind := by
            rw [Machine.kinds, hm]
            exact congrArg _ hs
          rcases ih hnext (hstack ▸ hrest) with hfails | ⟨n, hmisfits, hfaults⟩
          · exact .inl (hfails.cons hr)
          · exact .inr ⟨n + 1, .succ happly (hstack ▸ hmisfits), hfaults.succ hr⟩

/-- What the signatures of a straight piece of code say about the whole of it.  An operation may raise a fault of
its own in either case. -/
structure Composes (m : Machine) (ops : List Opcode) (sigs : List Signature) : Prop where
  wellTyped : ∀ below top kinds, m.stack.toList = below ++ top →
    Signature.applyAll sigs (top.map Value.kind) = .ok kinds →
      m.FailsIn ops ∨ (∀ k < ops.length, (m.after k).step.reports = []) ∧
        ∃ top', (m.after ops.length).stack.toList = below ++ top' ∧ top'.map Value.kind = kinds
  illTyped : ∀ kind, Signature.applyAll sigs m.kinds = .error kind →
    m.FailsIn ops ∨ ∃ n, Signature.MisfitsAt sigs m.kinds n kind ∧ m.FaultsAfter n kind

theorem signatures_exact_and_compose (hlimit : m.stack.limit = 0) :
    (∀ d sig, m.next? = some d → d.op.signature? = some sig → m.Exact d sig)
      ∧ ∀ ops sigs, m.Begins ops sigs → m.Composes ops sigs := by
  constructor
  · exact fun d sig hn hsig => (step_applies hlimit hn hsig).exact
  · intro ops sigs hbegins
    constructor
    case wellTyped => exact fun below top kinds hs hkinds => hbegins.wellTyped hs hkinds
    case illTyped => exact fun kind hkinds => hbegins.illTyped hkinds

theorem signatures_exact_and_compose_sum :
    ∃ m : Machine, m.stack.limit = 0
      ∧ m.Begins [.iconst2, .iconst3, .iadd]
        [⟨[], some .int⟩, ⟨[], some .int⟩, ⟨[.only .int, .only .int], some .int⟩]
      ∧ (m.after 3).kinds = [.int] := by
  let program : Program :=
    ⟨#[Opcode.iconst2.word, Opcode.iconst3.word, Opcode.iadd.word], .empty, .empty, .empty⟩
  let m := Machine.start program .unlimited
  have hbegins : m.Begins [.iconst2, .iconst3, .iadd]
      [⟨[], some .int⟩, ⟨[], some .int⟩, ⟨[.only .int, .only .int], some .int⟩] := by
    refine ⟨rfl, ⟨rfl, rfl⟩, ?_, rfl⟩
    simp [m, program, Machine.start, Straight, Opcode.arity]
  refine ⟨m, rfl, hbegins, ?_⟩
  obtain ⟨-, hcomposes⟩ := signatures_exact_and_compose (m := m) rfl
  rcases (hcomposes _ _ hbegins).wellTyped [] [] [.int] rfl rfl with
    ⟨n, op, kind, hop, hown, -⟩ | ⟨-, top, hs, hk⟩
  · have hmem := List.mem_of_getElem? hop
    simp only [List.mem_cons, List.not_mem_nil, or_false] at hmem
    rcases hmem with rfl | rfl | rfl <;> cases hown
  · rw [kinds, show (m.after 3).stack.toList = _ from hs]
    exact hk

end Machine

end StackMachine

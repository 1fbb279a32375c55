import StackMachine.Proofs.Machine.Decoding
import StackMachine.Proofs.Machine.Kinds

/-!
Tests in their three forms.  A condition is looked at by a branch, by a choice between two targets, or, if it is
a relation, by an operation of its own before a branch on the truth.  The forms raise the same faults, leave the
same stack and go to the same targets.
-/

set_option autoImplicit false

namespace StackMachine

/-! ## Relations as operations -/

namespace Relation

/-- The operation that puts the truth of the relation on the stack. -/
def testOp : Relation → Opcode
  | lt => .lt
  | gt => .gt
  | leq => .leq
  | geq => .geq
  | eq => .eq
  | neq => .neq

/-- Whether the operation takes reals only; equality is tested of any two values. -/
def isOrder : Relation → Bool
  | eq | neq => false
  | _ => true

/-- The operator of the operation. -/
def tester : Relation → BinaryOperator
  | eq => .equal
  | neq => .notEqual
  | r => .relation r

theorem instruction_testOp (r : Relation) (a b : Word) :
    r.testOp.instruction a b = .operate (.binary r.tester) := by
  cases r <;> rfl

theorem tester_of_isOrder {r : Relation} (h : r.isOrder = true) : r.tester = .relation r := by
  cases r with
  | eq | neq => cases h
  | _ => rfl

theorem apply_tester (r : Relation) (x y : Float) :
    r.tester.apply (.real x) (.real y) = .ok (.ofBool (r.holds x y)) := by
  cases r <;> rfl

end Relation

/-! ## Decisions -/

namespace Condition

variable {c c' : Condition} {r : Relation} {s t : OperandStack} {ip other : Nat}

/-- The operation that jumps if the condition holds. -/
def branchOp : Condition → Opcode
  | zero => .br0
  | nonzero => .brN0
  | relation .lt => .brLt
  | relation .gt => .brGt
  | relation .leq => .brLeq
  | relation .geq => .brGeq
  | relation .eq => .brEq
  | relation .neq => .brNeq
  | null => .brNul
  | notNull => .brNnul

/-- The operation that jumps to one of two targets. -/
def chooseOp : Condition → Opcode
  | zero => .if0
  | nonzero => .ifN0
  | relation .lt => .ifLt
  | relation .gt => .ifGt
  | relation .leq => .ifLeq
  | relation .geq => .ifGeq
  | relation .eq => .ifEq
  | relation .neq => .ifNeq
  | null => .ifNul
  | notNull => .ifNnul

/-- The condition that holds where this one does not, if there is one.  The order relations have none, since
none of them holds of a NaN. -/
def complement? : Condition → Option Condition
  | zero => some nonzero
  | nonzero => some zero
  | null => some notNull
  | notNull => some null
  | relation .eq => some (relation .neq)
  | relation .neq => some (relation .eq)
  | relation _ => none

/-- What comes of going to `ip` if the condition holds and to `other` if not: its fault, or the stack without the
values that it looked at, and the address. -/
def decision (c : Condition) (s : OperandStack) (ip other : Nat) : Except Fault (List Value × Nat) :=
  match c.evaluate s with
  | .ok holds => .ok (s.toList.take (s.depth - c.arity), if holds then ip else other)
  | .error cause => .error cause.fault

theorem instruction_branchOp (c : Condition) (a b : Word) : c.branchOp.instruction a b = .branch c a := by
  cases c with
  | relation r => cases r <;> rfl
  | _ => rfl

theorem instruction_chooseOp (c : Condition) (a b : Word) : c.chooseOp.instruction a b = .choose c a b := by
  cases c with
  | relation r => cases r <;> rfl
  | _ => rfl

theorem arity_branchOp (c : Condition) : c.branchOp.arity = 1 := by
  cases c with
  | relation r => cases r <;> rfl
  | _ => rfl

theorem arity_chooseOp (c : Condition) : c.chooseOp.arity = 2 := by
  cases c with
  | relation r => cases r <;> rfl
  | _ => rfl

/-- A condition looks at the values of a stack only. -/
theorem decision_congr (h : s.toList = t.toList) : c.decision s ip other = c.decision t ip other := by
  obtain ⟨values, limit⟩ := s
  obtain ⟨values', limit'⟩ := t
  obtain rfl : values = values' := Pile.eq_of_topDown (List.reverse_inj.1 h)
  have hevaluate : c.evaluate ⟨values, limit⟩ = c.evaluate ⟨values, limit'⟩ := by
    cases c <;> rfl
  rw [decision, decision, hevaluate]
  rfl

theorem related_neq (s : OperandStack) : related .neq s = (related .eq s).map not := by
  rw [related, related]
  split
  · next w v _ _ =>
    cases v.expectReal "compare" with
    | error cause => rfl
    | ok x => cases w.expectReal "compare" <;> rfl
  · rfl

theorem map_not_not (truth : Except Cause Bool) : (truth.map not).map not = truth := by
  cases truth with
  | ok holds => exact congrArg Except.ok holds.not_not
  | error cause => rfl

theorem evaluate_complement (h : c.complement? = some c') (s : OperandStack) :
    c'.evaluate s = (c.evaluate s).map not := by
  cases c with
  | zero =>
    cases h
    exact (map_not_not _).symm
  | nonzero =>
    cases h
    rfl
  | null =>
    cases h
    rw [evaluate, evaluate]
    cases s.peek 0 <;> rfl
  | notNull =>
    cases h
    rw [evaluate, evaluate]
    cases s.peek 0 with
    | ok v => exact congrArg Except.ok v.isNull.not_not.symm
    | error cause => rfl
  | relation r =>
    cases r with
    | eq =>
      cases h
      exact related_neq s
    | neq =>
      cases h
      rw [evaluate, evaluate, related_neq, map_not_not]
    | _ => cases h

theorem arity_complement (h : c.complement? = some c') : c'.arity = c.arity := by
  cases c with
  | relation r => cases r <;> cases h <;> rfl
  | _ => cases h; rfl

theorem decision_complement (h : c.complement? = some c') (s : OperandStack) (ip other : Nat) :
    c'.decision s other ip = c.decision s ip other := by
  rw [decision, decision, evaluate_complement h, arity_complement h]
  cases c.evaluate s with
  | ok holds => cases holds <;> rfl
  | error cause => rfl

/-- A relation is decided between two reals on top of the stack, and of nothing else. -/
theorem related_eq_ok {holds : Bool} :
    related r s = .ok holds ↔
      ∃ rest x y, s.toList = rest ++ [.real x, .real y] ∧ r.holds x y = holds := by
  constructor
  · intro h
    rw [related] at h
    split at h
    · next w v rest hs =>
      obtain ⟨x, hx, h⟩ := bind_eq_ok.1 h
      obtain ⟨y, hy, h⟩ := bind_eq_ok.1 h
      cases v <;> cases hx
      cases w <;> cases hy
      cases h
      exact ⟨rest.reverse, x, y, by simp [OperandStack.toList, Pile.toList, hs], rfl⟩
    · cases h
  · rintro ⟨rest, x, y, hs, rfl⟩
    rw [related, OperandStack.topDown_of_toList hs]
    rfl

theorem arity_le_of_evaluate {holds : Bool} (h : c.evaluate s = .ok holds) : c.arity ≤ s.depth := by
  have hpeek : ∀ v, s.peek 0 = .ok v → 1 ≤ s.depth := fun v hv => by
    rw [OperandStack.depth_eq_length]
    rw [OperandStack.peek] at hv
    split at hv
    · next htop => exact (List.getElem?_eq_some_iff.1 htop).1
    · cases hv
  cases c with
  | zero =>
    obtain ⟨_, htruth, -⟩ := bind_eq_ok.1 h
    obtain ⟨v, hv, -⟩ := bind_eq_ok.1 htruth
    exact hpeek v hv
  | nonzero | null | notNull =>
    obtain ⟨v, hv, -⟩ := bind_eq_ok.1 h
    exact hpeek v hv
  | relation r =>
    obtain ⟨rest, x, y, hs, -⟩ := related_eq_ok.1 h
    rw [← OperandStack.length_toList, hs, List.length_append]
    exact Nat.le_add_left _ _

/-- A decision that is made takes just what the condition looks at, and goes to one of the two addresses. -/
theorem decision_eq_ok {values : List Value} {address : Nat} (h : c.decision s ip other = .ok (values, address)) :
    ∃ operands holds, s.toList = values ++ operands ∧ operands.length = c.arity
      ∧ c.evaluate s = .ok holds ∧ address = if holds then ip else other := by
  rw [decision] at h
  split at h
  · next holds hholds =>
    cases h
    have hle := arity_le_of_evaluate hholds
    refine ⟨s.toList.drop (s.depth - c.arity), holds, (List.take_append_drop _ _).symm, ?_, hholds, rfl⟩
    rw [List.length_drop, OperandStack.length_toList]
    omega
  · cases h

theorem decision_relation {rest : List Value} {x y : Float} (h : s.toList = rest ++ [.real x, .real y])
    (ip other : Nat) :
    (relation r).decision s ip other = .ok (rest, if r.holds x y then ip else other) := by
  have hrest : s.toList.take (s.depth - (relation r).arity) = rest :=
    (OperandStack.toList_drop s 2).symm.trans (OperandStack.toList_drop_of_toList h)
  rw [decision, evaluate, related_eq_ok.2 ⟨rest, x, y, h, rfl⟩, hrest]

theorem decision_nonzero (s : OperandStack) (holds : Bool) (ip other : Nat) :
    nonzero.decision (s.put (.ofBool holds)) ip other = .ok (s.toList, if holds then ip else other) := by
  have hevaluate : nonzero.evaluate (s.put (.ofBool holds)) = .ok holds := by
    cases holds <;> rfl
  rw [decision, hevaluate, OperandStack.toList_put, OperandStack.depth_put]
  exact congrArg (fun values => Except.ok (values, _)) (List.take_left' (s.length_toList))

theorem result_relation (r : Relation) (s : OperandStack) :
    Operator.result (.binary (.relation r)) s = (related r s).map Value.ofBool := by
  rcases hs : s.values.topDown with _ | ⟨w, _ | ⟨v, rest⟩⟩
  · simp only [Operator.result, related, hs]
    rfl
  · simp only [Operator.result, related, hs]
    rfl
  · simp only [Operator.result, related, hs, BinaryOperator.apply]
    cases v.expectReal "compare" with
    | error cause => rfl
    | ok x => cases w.expectReal "compare" <;> rfl

end Condition

/-! ## Instructions that follow one another -/

namespace Machine

open Execution

variable {m m' : Machine} {d : Decoded} {c : Condition} {r : Relation} {ip other : Nat} {target otherwise : Word}

/-- What comes of `n` steps: the kind and the message of the first fault, or the stack and the address after
them. -/
def outcome : Machine → Nat → Except Fault (List Value × Nat)
  | m, 0 => .ok (m.stack.toList, m.ip)
  | m, n + 1 =>
    match m.step.reports with
    | [] => m.step.machine.outcome n
    | report :: _ => .error ⟨report.kind, report.message⟩

/-- The machine is about to execute these operations with these operands, which the listing shows one after
another from its address on. -/
def Faces : Machine → List (Opcode × List Word) → Prop
  | _, [] => True
  | m, (op, operands) :: rest =>
    m.state = .running ∧ m.isBudgetExhausted = false
      ∧ Listing.lineAt? m.program.code m.ip = some ⟨m.ip, op.word, some op, operands.map some⟩
      ∧ { m with executed := m.executed + 1, ip := m.ip + 1 + operands.length }.Faces rest

theorem Faces.next {op : Opcode} {operands : List Word} {rest : List (Opcode × List Word)}
    (h : m.Faces ((op, operands) :: rest)) :
    ∃ d, m.next? = some d ∧ d.op = op ∧ d.operands = operands ∧ d.next = m.ip + 1 + operands.length := by
  obtain ⟨hr, hb, hline, -⟩ := h
  have hpresent : none ∉ operands.map some := by simp
  obtain ⟨d, hn, hop, hoperands, hnext⟩ :=
    next?_of_line hr hb hline rfl ((Listing.none_notMem_operands hline).1 hpresent)
  refine ⟨d, hn, hop, List.map_injective_iff.2 (fun _ _ => Option.some.inj) hoperands.symm, ?_⟩
  rw [hnext, Line.next, List.length_map]

theorem Faces.withStack {instructions : List (Opcode × List Word)} (h : m.Faces instructions)
    (stack : OperandStack) : { m with stack }.Faces instructions := by
  induction instructions generalizing m with
  | nil => trivial
  | cons first rest ih =>
    obtain ⟨hr, hb, hline, hrest⟩ := h
    exact ⟨hr, hb, hline, ih hrest⟩

/-- An instruction that finds something out, and then goes on without a trap or fails for a cause. -/
theorem outcome_of_execute {α : Type} {found : Except Cause α} {next : α → Machine} (hn : m.next? = some d)
    (h : (m.fetch d).execute m.ip d.instruction = (m.fetch d).orFault found fun a => done (next a)) (n : Nat) :
    m.outcome (n + 1) = (found.mapError Cause.fault).bind fun a => (next a).outcome n := by
  cases found with
  | ok a =>
    have hstep : m.step = settle m.ip (m.announce d.op) (done (next a)) := by
      rw [step_of_next? hn, h]
      rfl
    have hreports : m.step.reports = [] := by
      rw [hstep]
      exact (List.filterMap_append ..).trans (by rw [reports_announce]; rfl)
    rw [outcome, hreports, hstep]
    rfl
  | error cause =>
    rw [outcome, (step_of_fault hn h).2]
    rfl

theorem outcome_of_decision (hn : m.next? = some d) (hreach : d.instruction.reach = c.arity)
    (h : (m.fetch d).destination? d.instruction =
      some do return if ← c.evaluate m.stack then ip else other) :
    m.outcome 1 = c.decision m.stack ip other := by
  rw [outcome_of_execute hn (execute_destination h), Condition.decision]
  cases c.evaluate m.stack with
  | ok holds =>
    rw [hreach]
    exact congrArg (fun values => Except.ok (values, _)) (OperandStack.toList_drop _ _)
  | error cause => rfl

theorem outcome_branch (h : m.Faces [(c.branchOp, [target])]) (ht : m.jumpTarget target = .ok ip) :
    m.outcome 1 = c.decision m.stack ip (m.ip + 2) := by
  obtain ⟨d, hn, hop, hoperands, hnext⟩ := h.next
  rw [Decoded.operands, hop, c.arity_branchOp] at hoperands
  have hi : d.instruction = .branch c target := by
    rw [Decoded.instruction, hop, c.instruction_branchOp, (List.cons.inj hoperands).1]
  refine outcome_of_decision hn (by rw [hi]; rfl) ?_
  have ht' : (m.fetch d).jumpTarget target = .ok ip := ht
  have hip : (m.fetch d).ip = m.ip + 2 := hnext
  rw [hi, destination?, ht', hip]
  rfl

theorem outcome_choose (h : m.Faces [(c.chooseOp, [target, otherwise])]) (ht : m.jumpTarget target = .ok ip)
    (ho : m.jumpTarget otherwise = .ok other) : m.outcome 1 = c.decision m.stack ip other := by
  obtain ⟨d, hn, hop, hoperands, -⟩ := h.next
  rw [Decoded.operands, hop, c.arity_chooseOp] at hoperands
  obtain ⟨hfirst, hrest⟩ := List.cons.inj hoperands
  have hi : d.instruction = .choose c target otherwise := by
    rw [Decoded.instruction, hop, c.instruction_chooseOp, hfirst, (List.cons.inj hrest).1]
  refine outcome_of_decision hn (by rw [hi]; rfl) ?_
  have ht' : (m.fetch d).jumpTarget target = .ok ip := ht
  have ho' : (m.fetch d).jumpTarget otherwise = .ok other := ho
  rw [hi, destination?, ht', ho']
  rfl

/-- A relation as an operation puts its result in the place of the operands. -/
theorem outcome_test {rest : List (Opcode × List Word)} (h : m.Faces ((r.testOp, []) :: rest)) (n : Nat) :
    m.outcome (n + 1) =
      ((Operator.result (.binary r.tester) m.stack).mapError Cause.fault).bind fun v =>
        { m with executed := m.executed + 1, ip := m.ip + 1, stack := (m.stack.drop 2).put v }.outcome n := by
  obtain ⟨d, hn, hop, -, hnext⟩ := h.next
  have hi : d.instruction = .operate (.binary r.tester) := by
    rw [Decoded.instruction, hop, r.instruction_testOp]
  have hcomputed : (m.fetch d).computed? d.instruction =
      some do return (m.stack.drop 2).put (← Operator.result (.binary r.tester) m.stack) := by
    rw [hi]
    rfl
  have hip : d.next = m.ip + 1 := hnext
  rw [outcome_of_execute hn (execute_computed hcomputed)]
  simp only [fetch, hip]
  cases Operator.result (.binary r.tester) m.stack <;> rfl

/-- The truth of a relation between two reals, found out before the branch. -/
theorem outcome_test_branch {rest : List Value} {x y : Float}
    (h : m.Faces [(r.testOp, []), (Condition.nonzero.branchOp, [target])]) (ht : m.jumpTarget target = .ok ip)
    (hs : m.stack.toList = rest ++ [.real x, .real y]) :
    m.outcome 2 = .ok (rest, if r.holds x y then ip else m.ip + 3) := by
  have hresult : Operator.result (.binary r.tester) m.stack = .ok (.ofBool (r.holds x y)) :=
    (Operator.result_binary hs).trans (r.apply_tester x y)
  rw [outcome_test h, hresult]
  -- What follows the test is shown for the old stack; the branch is looked up in the code, whatever the stack.
  obtain ⟨-, -, -, hrest⟩ := h
  refine (outcome_branch (hrest.withStack _) ht).trans ?_
  have hrest : (m.stack.drop 2).toList = rest := OperandStack.toList_drop_of_toList hs
  rw [Condition.decision_nonzero, hrest]
  rfl

theorem outcome_test_fault {rest : List (Opcode × List Word)} (hr : r.isOrder = true)
    (h : m.Faces ((r.testOp, []) :: rest)) (ht : m'.jumpTarget target = .ok ip)
    (h' : m'.Faces [((Condition.relation r).branchOp, [target])]) (hs : m'.stack.toList = m.stack.toList)
    (hreals : ¬ ∃ rest x y, m.stack.toList = rest ++ [.real x, .real y]) :
    ∃ fault, m.outcome 1 = .error fault ∧ m'.outcome 1 = .error fault := by
  cases hrelated : Condition.related r m.stack with
  | ok holds =>
    obtain ⟨rest, x, y, hxy, -⟩ := Condition.related_eq_ok.1 hrelated
    exact absurd ⟨rest, x, y, hxy⟩ hreals
  | error cause =>
    refine ⟨cause.fault, ?_, ?_⟩
    · rw [outcome_test h, Relation.tester_of_isOrder hr, Condition.result_relation, hrelated]
      rfl
    · rw [outcome_branch h' ht, Condition.decision_congr hs, Condition.decision, Condition.evaluate, hrelated]

/-! ## The forms together -/

/-- How the forms of a test agree between a machine and another one. -/
structure FormsAgree (m m' : Machine) : Prop where
  branch_choose : ∀ c target otherwise ip, m.jumpTarget target = .ok ip → m'.jumpTarget target = .ok ip →
    m'.jumpTarget otherwise = .ok (m.ip + 2) →
    m.Faces [(Condition.branchOp c, [target])] → m'.Faces [(Condition.chooseOp c, [target, otherwise])] →
      m.outcome 1 = m'.outcome 1
  test_branch : ∀ r target ip rest x y, m.jumpTarget target = .ok ip → m'.jumpTarget target = .ok ip →
    m.stack.toList = rest ++ [.real x, .real y] →
    m.Faces [(Relation.testOp r, []), (.brN0, [target])] →
    m'.Faces [(Condition.branchOp (.relation r), [target])] →
      m.outcome 2 = .ok (rest, if r.holds x y then ip else m.ip + 3)
        ∧ m'.outcome 1 = .ok (rest, if r.holds x y then ip else m'.ip + 2)
  test_fault : ∀ r target ip, m'.jumpTarget target = .ok ip → Relation.isOrder r = true →
    (¬ ∃ rest x y, m.stack.toList = rest ++ [.real x, .real y]) →
    m.Faces [(r.testOp, [])] → m'.Faces [(Condition.branchOp (.relation r), [target])] →
      ∃ fault, m.outcome 1 = .error fault ∧ m'.outcome 1 = .error fault
  complement : ∀ c c' target otherwise ip other, Condition.complement? c = some c' →
    m.jumpTarget target = .ok ip → m'.jumpTarget target = .ok ip →
    m.jumpTarget otherwise = .ok other → m'.jumpTarget otherwise = .ok other →
    m.Faces [(c.chooseOp, [target, otherwise])] → m'.Faces [(c'.chooseOp, [otherwise, target])] →
      m.outcome 1 = m'.outcome 1
  choose : ∀ c target otherwise ip other values address,
    m.jumpTarget target = .ok ip → m.jumpTarget otherwise = .ok other →
    m.Faces [(Condition.chooseOp c, [target, otherwise])] → m.outcome 1 = .ok (values, address) →
      ∃ operands holds, m.stack.toList = values ++ operands ∧ operands.length = c.arity
        ∧ c.evaluate m.stack = .ok holds ∧ address = if holds then ip else other

/-- The forms of a test agree wherever the stacks hold the same values. -/
theorem test_forms_agree (hs : m'.stack.toList = m.stack.toList) : m.FormsAgree m' where
  branch_choose := fun c target otherwise ip ht ht' ho' h h' => by
    rw [outcome_branch h ht, outcome_choose h' ht' ho', Condition.decision_congr hs]
  test_branch := fun r target ip rest x y ht ht' hxy h h' => by
    refine ⟨outcome_test_branch h ht hxy, ?_⟩
    rw [outcome_branch h' ht', Condition.decision_relation (hs.trans hxy)]
  test_fault := fun r target ip ht' hr hreals h h' => outcome_test_fault hr h ht' h' hs hreals
  complement := fun c c' target otherwise ip other hc ht ht' ho ho' h h' => by
    rw [outcome_choose h ht ho, outcome_choose h' ho' ht', Condition.decision_complement hc,
      Condition.decision_congr hs]
  choose := fun c target otherwise ip other values address ht ho h hok =>
    Condition.decision_eq_ok ((outcome_choose h ht ho).symm.trans hok)

/-- A comparison with a branch behind it, and the branch that compares. -/
theorem test_forms_agree_lt :
    ∃ m m' : Machine, m'.stack.toList = m.stack.toList ∧ m.stack.toList = [.real 1.0, .real 2.0]
      ∧ m.Faces [(.lt, []), (.brN0, [0])] ∧ m'.Faces [(.brLt, [0])]
      ∧ m.outcome 2 = .ok ([], if Relation.lt.holds 1.0 2.0 then 0 else 3)
      ∧ m'.outcome 1 = .ok ([], if Relation.lt.holds 1.0 2.0 then 0 else 2) := by
  let stack : OperandStack := ⟨.ofList [.real 1.0, .real 2.0], 0⟩
  let m := { Machine.start ⟨#[Opcode.lt.word, Opcode.brN0.word, 0], .empty, .empty, .empty⟩ .unlimited with stack }
  let m' := { Machine.start ⟨#[Opcode.brLt.word, 0], .empty, .empty, .empty⟩ .unlimited with stack }
  have h : m.Faces [(.lt, []), (.brN0, [0])] := by
    refine ⟨rfl, rfl, ?_, rfl, rfl, ?_, trivial⟩
    · simp [m, Machine.start, Listing.lineAt?, Opcode.arity]
    · simp [m, Machine.start, Listing.lineAt?, Opcode.arity]
  have h' : m'.Faces [(.brLt, [0])] := by
    refine ⟨rfl, rfl, ?_, trivial⟩
    simp [m', Machine.start, Listing.lineAt?, Opcode.arity]
  have hagree : m.FormsAgree m' := test_forms_agree rfl
  obtain ⟨htest, hbranch⟩ := hagree.test_branch .lt 0 0 [] 1.0 2.0 rfl rfl rfl h h'
  exact ⟨m, m', rfl, rfl, h, h', htest, hbranch⟩

end Machine

end StackMachine

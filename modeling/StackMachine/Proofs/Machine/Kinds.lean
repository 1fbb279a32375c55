import StackMachine.Proofs.Machine.Computed
import StackMachine.Proofs.Stack.Onto

/-!
The kinds of operands and results.  An operator says which kinds it takes and which kind it gives; an operand
of another kind is a mismatch, and an operator fails on operands that it takes in one way at most.
-/

set_option autoImplicit false

namespace StackMachine

/-- The kinds that an operand may have. -/
inductive Demand where
  | any
  | only (kind : ValueKind)
  | number
  | signedNumber
  deriving DecidableEq

def Demand.accepts : Demand → ValueKind → Bool
  | any, _ => true
  | only kind, k => k = kind
  | number, k => k ∉ [.null, .string, .ref]
  | signedNumber, k => k ∉ [.null, .string, .ref] && !k.isUnsigned

/-- The operands that an operation takes from the stack, the deepest first, and the kind of its result; without
one it is the kind of its operand. -/
structure Signature where
  operands : List Demand
  result : Option ValueKind
  deriving DecidableEq

namespace Signature

def arity (sig : Signature) : Nat := sig.operands.length

def accepts (sig : Signature) (kinds : List ValueKind) : Bool :=
  (List.zipWith Demand.accepts sig.operands kinds).all id

def resultKind (sig : Signature) (kinds : List ValueKind) : ValueKind :=
  sig.result.getD (kinds.headD .null)

end Signature

/-! ## The signatures of operators -/

def UnaryOperator.signature : UnaryOperator → Signature
  | int _ => ⟨[.only .int], some .int⟩
  | toReal => ⟨[.only .int], some .real⟩
  | toInt => ⟨[.only .real], some .int⟩
  | increment | decrement => ⟨[.number], none⟩
  | negate => ⟨[.signedNumber], none⟩
  | length => ⟨[.only .string], some .int⟩

def BinaryOperator.signature : BinaryOperator → Signature
  | int _ => ⟨[.only .int, .only .int], some .int⟩
  | real _ => ⟨[.only .real, .only .real], some .real⟩
  | relation _ | threeWay => ⟨[.only .real, .only .real], some .int⟩
  | equal | notEqual => ⟨[.any, .any], some .int⟩
  | scaleUp | scaleDown => ⟨[.only .real, .only .int], some .real⟩
  | concatenate => ⟨[.only .string, .only .string], some .string⟩
  | octet => ⟨[.only .string, .only .int], some .byte⟩

def Operator.signature : Operator → Signature
  | unary op => op.signature
  | binary op => op.signature
  | slice => ⟨[.only .string, .only .int, .only .int], some .string⟩

/-- The kind of fault that an operator may raise for operands of the kinds that it takes. -/
def Operator.ownFault? : Operator → Option FaultKind
  | binary (.int .remainder) | binary (.real .divide) => some .divisionByZero
  | binary (.int .shiftLeft) | binary (.int .shiftRight) => some .unsignedOperandExpected
  | binary .octet | slice => some .indexOutOfRange
  | _ => none

theorem Operator.arity_signature (op : Operator) : op.signature.arity = op.arity := by
  cases op with
  | unary op => cases op <;> rfl
  | binary op => cases op <;> rfl
  | slice => rfl

/-! ## Checks -/

variable {sig : Signature} {own : Option FaultKind} {kinds : List ValueKind} {v w : Value}

/-- What a computation makes of operands of the kinds `kinds` under a signature. -/
inductive Signature.Answers (sig : Signature) (own : Option FaultKind) (kinds : List ValueKind) :
    Except Cause Value → Prop
  | mismatched {cause : Cause} (hkinds : sig.accepts kinds = false) (hk : cause.kind = .typeMismatch) :
    Answers sig own kinds (.error cause)
  | failed {cause : Cause} (hkinds : sig.accepts kinds = true) (hk : own = some cause.kind) :
    Answers sig own kinds (.error cause)
  | computed {v : Value} (hkinds : sig.accepts kinds = true) (hk : v.kind = sig.resultKind kinds) :
    Answers sig own kinds (.ok v)

/-- The check takes values of the kind `kind` only. -/
def Expects {α : Type} (kind : ValueKind) (v : Value) (r : Except ValueError α) : Prop :=
  (v.kind = kind ∧ ∃ a, r = .ok a) ∨
    v.kind ≠ kind ∧ ∃ operation, r = .error (.typeMismatch operation kind v.kind)

theorem expects_int (v : Value) (operation : String) : Expects .int v (v.expectInt operation) := by
  cases v with
  | int n => exact .inl ⟨rfl, n, rfl⟩
  | _ => exact .inr ⟨nofun, operation, rfl⟩

theorem expects_real (v : Value) (operation : String) : Expects .real v (v.expectReal operation) := by
  cases v with
  | real x => exact .inl ⟨rfl, x, rfl⟩
  | _ => exact .inr ⟨nofun, operation, rfl⟩

theorem expects_string (v : Value) (operation : String) : Expects .string v (v.expectString operation) := by
  cases v with
  | string s => exact .inl ⟨rfl, s, rfl⟩
  | _ => exact .inr ⟨nofun, operation, rfl⟩

namespace Signature

theorem Answers.check {α : Type} {kind result : ValueKind} {operands : List Demand}
    {r : Except ValueError α} {next : α → Except Cause Value} (h : Expects kind v r)
    (hnext : ∀ a, Answers ⟨operands, some result⟩ own kinds (next a)) :
    Answers ⟨.only kind :: operands, some result⟩ own (v.kind :: kinds) (do next (← orCause r)) := by
  -- An operand that fits leaves the answer to the others; one that does not is a mismatch whatever they are.
  rcases h with ⟨hkind, a, rfl⟩ | ⟨hkind, operation, rfl⟩
  · have haccepts : accepts ⟨.only kind :: operands, some result⟩ (v.kind :: kinds)
        = accepts ⟨operands, some result⟩ kinds := by
      simp [accepts, Demand.accepts, hkind]
    have hanswers := hnext a
    change Answers _ own (v.kind :: kinds) (next a)
    generalize next a = r at hanswers ⊢
    cases hanswers with
    | mismatched hkinds hk => exact .mismatched (haccepts.trans hkinds) hk
    | failed hkinds hk => exact .failed (haccepts.trans hkinds) hk
    | computed hkinds hk => exact .computed (haccepts.trans hkinds) hk
  · refine .mismatched ?_ rfl
    simp [accepts, Demand.accepts, hkind]

theorem Answers.result {result : ValueKind} {v : Value} (h : v.kind = result) :
    Answers ⟨[], some result⟩ own [] (.ok v) :=
  .computed rfl h

theorem Answers.ownFault {result : ValueKind} {cause : Cause} (h : own = some cause.kind) :
    Answers ⟨[], some result⟩ own [] (.error cause) :=
  .failed rfl h

end Signature

/-! ## Operators -/

open Signature

theorem UnaryOperator.answers (op : UnaryOperator) (v : Value) :
    op.signature.Answers none [v.kind] (op.apply v) := by
  cases op with
  | int op => exact .check (expects_int v _) fun x => .result rfl
  | toReal => exact .check (expects_int v _) fun x => .result rfl
  | toInt => exact .check (expects_real v _) fun x => .result rfl
  | length => exact .check (expects_string v _) fun x => .result rfl
  | increment | decrement | negate =>
    cases v with
    | null | string | ref => exact .mismatched rfl rfl
    | int | real | long | float | double | complex => exact .computed rfl rfl
    | byte | uint | ulong => first | exact .computed rfl rfl | exact .mismatched rfl rfl

theorem answers_eval_int (op : IntBinary) (x y : Int64) :
    Answers ⟨[], some .int⟩ (Operator.ownFault? (.binary (.int op))) [] (do return .int (← op.eval x y)) := by
  cases op with
  | remainder | shiftLeft | shiftRight =>
    rw [IntBinary.eval]
    split
    · exact .ownFault rfl
    · exact .result rfl
  | _ => exact .result rfl

theorem answers_eval_real (op : RealBinary) (x y : Float) :
    Answers ⟨[], some .real⟩ (Operator.ownFault? (.binary (.real op))) [] (do return .real (← op.eval x y)) := by
  cases op with
  | divide =>
    rw [RealBinary.eval]
    split
    · exact .ownFault rfl
    · exact .result rfl
  | _ => exact .result rfl

theorem BinaryOperator.answers (op : BinaryOperator) (v w : Value) :
    op.signature.Answers (Operator.ownFault? (.binary op)) [v.kind, w.kind] (op.apply v w) := by
  cases op with
  | int op =>
    exact .check (expects_int v _) fun x => .check (expects_int w _) fun y => answers_eval_int op x y
  | real op =>
    exact .check (expects_real v _) fun x => .check (expects_real w _) fun y => answers_eval_real op x y
  | relation | threeWay =>
    exact .check (expects_real v _) fun x => .check (expects_real w _) fun y => .result rfl
  | equal | notEqual => exact .computed rfl rfl
  | scaleUp | scaleDown =>
    exact .check (expects_real v _) fun x => .check (expects_int w _) fun y => .result rfl
  | concatenate =>
    exact .check (expects_string v _) fun s => .check (expects_string w _) fun t => .result rfl
  | octet =>
    refine .check (expects_string v _) fun s => .check (expects_int w _) fun i => ?_
    rw [ByteString.octetAt]
    cases s.octet? i with
    | some b => exact .result rfl
    | none => exact .ownFault rfl

theorem answers_slice (v w u : Value) :
    Operator.slice.signature.Answers Operator.slice.ownFault? [v.kind, w.kind, u.kind] (sliceValue v w u) := by
  refine .check (expects_string v _) fun s => .check (expects_int w _) fun i =>
    .check (expects_int u _) fun j => ?_
  rw [ByteString.slice]
  cases s.slice? i j with
  | some t => exact .result rfl
  | none => exact .ownFault rfl

theorem OperandStack.exists_operands {s : OperandStack} {n : Nat} (h : n ≤ s.depth) :
    ∃ rest operands, s.toList = rest ++ operands ∧ operands.length = n := by
  refine ⟨_, _, (List.take_append_drop (s.depth - n) s.toList).symm, ?_⟩
  rw [List.length_drop, length_toList]
  omega

theorem Operator.result_unary {op : UnaryOperator} {s : OperandStack} {below : List Value}
    (h : s.toList = below ++ [v]) : (unary op).result s = op.apply v := by
  unfold result
  rw [OperandStack.topDown_of_toList h]
  rfl

theorem Operator.result_binary {op : BinaryOperator} {s : OperandStack} {below : List Value}
    (h : s.toList = below ++ [v, w]) : (binary op).result s = op.apply v w := by
  unfold result
  rw [OperandStack.topDown_of_toList h]
  rfl

theorem Operator.result_slice {s : OperandStack} {below : List Value} {u : Value}
    (h : s.toList = below ++ [v, w, u]) : slice.result s = sliceValue v w u := by
  unfold result
  rw [OperandStack.topDown_of_toList h]
  rfl

theorem Operator.answers (op : Operator) {s : OperandStack} {rest operands : List Value}
    (hs : s.toList = rest ++ operands) (hlength : operands.length = op.arity) :
    op.signature.Answers op.ownFault? (operands.map Value.kind) (op.result s) := by
  cases op with
  | unary op =>
    obtain ⟨v, rfl⟩ := List.length_eq_one_iff.1 hlength
    rw [result_unary hs]
    exact op.answers v
  | binary op =>
    match operands, hlength with
    | [v, w], _ =>
      rw [result_binary hs]
      exact op.answers v w
  | slice =>
    match operands, hlength with
    | [v, w, u], _ =>
      rw [result_slice hs]
      exact answers_slice v w u

theorem Operator.result_of_lt {op : Operator} {s : OperandStack} (h : s.depth < op.arity) :
    op.result s = .error (.underflow op.arity s.depth) := by
  have hlt := h
  rw [OperandStack.depth_eq_length] at hlt
  unfold result
  split
  · next hv => rw [hv] at hlt; exact absurd hlt (Nat.not_lt.2 (Nat.le_add_left _ _))
  · next hv => rw [hv] at hlt; exact absurd hlt (Nat.not_lt.2 (Nat.le_add_left _ _))
  · next hv => rw [hv] at hlt; exact absurd hlt (Nat.not_lt.2 (Nat.le_add_left _ _))
  · rfl

/-! ## Instructions -/

def Program.PoolName.kind : Program.PoolName → ValueKind
  | integer => .int
  | real => .real
  | string => .string

/-- The signature of an instruction that puts one value in the place of its operands. -/
def Instruction.signature? : Instruction → Option Signature
  | push v => some ⟨[], some v.kind⟩
  | constant pool _ => some ⟨[], some pool.kind⟩
  | operate op => some op.signature
  | _ => none

def Instruction.ownFault? : Instruction → Option FaultKind
  | constant .. => some .invalidConstant
  | operate op => op.ownFault?
  | _ => none

namespace Machine

variable {m : Machine} {i : Instruction}

theorem answers_constant (m : Machine) (pool : Program.PoolName) (index : Word) :
    Answers ⟨[], some pool.kind⟩ (some .invalidConstant) [] (m.constant pool index) := by
  unfold constant
  dsimp only
  split
  · next hfound =>
    refine .result ?_
    cases pool <;> obtain ⟨x, -, rfl⟩ := Option.map_eq_some_iff.1 hfound <;> rfl
  · exact .ownFault rfl

/-- Where no limit is set, an instruction with a signature puts what it makes of its operands in their place. -/
theorem computed?_answers (hlimit : m.stack.limit = 0) (hsig : i.signature? = some sig)
    {rest operands : List Value} (hs : m.stack.toList = rest ++ operands)
    (hlength : operands.length = sig.arity) :
    ∃ r, m.computed? i = some (do return (m.stack.drop sig.arity).put (← r))
      ∧ sig.Answers i.ownFault? (operands.map Value.kind) r := by
  have hpush : ∀ v, m.stack.push v = .ok ((m.stack.drop 0).put v) :=
    fun v => OperandStack.push_eq_ok.2 ⟨OperandStack.reserve_of_limit hlimit 1, rfl⟩
  cases i with
  | push v =>
    cases hsig
    rw [List.eq_nil_of_length_eq_zero hlength]
    exact ⟨.ok v, congrArg some (hpush v), .result rfl⟩
  | constant pool index =>
    cases hsig
    rw [List.eq_nil_of_length_eq_zero hlength]
    refine ⟨m.constant pool index, congrArg some ?_, answers_constant m pool index⟩
    cases m.constant pool index with
    | ok v => exact hpush v
    | error cause => rfl
  | operate op =>
    cases hsig
    rw [op.arity_signature] at hlength ⊢
    exact ⟨op.result m.stack, rfl, op.answers hs hlength⟩
  | _ => cases hsig

theorem computed?_of_lt (hsig : i.signature? = some sig) (h : m.stack.depth < sig.arity) :
    m.computed? i = some (.error (.underflow sig.arity m.stack.depth)) := by
  cases i with
  | push v => cases hsig; exact absurd h (Nat.not_lt_zero _)
  | constant pool index => cases hsig; exact absurd h (Nat.not_lt_zero _)
  | operate op =>
    cases hsig
    rw [op.arity_signature] at h ⊢
    rw [computed?, op.result_of_lt h]
    rfl
  | _ => cases hsig

end Machine

end StackMachine

import StackMachine.Proofs.Machine.Decoding
import StackMachine.Proofs.Machine.Reports
import StackMachine.Proofs.Machine.Runs
import StackMachine.Proofs.Machine.Signatures
import StackMachine.Proofs.Program.Assembly

/-!
Programs that push literals.  A builder only appends, so what it emits for a literal, and the constant that it
refers to, are the same in the finished program; the machine executes one instruction for each literal.
-/

set_option autoImplicit false

namespace StackMachine

/-! ## Programs that grow -/

/-- The code and the pools of `q` begin with those of `p`. -/
structure Program.Continues (p q : Program) : Prop where
  code : ∃ more, q.code = p.code ++ more
  ints : ∃ more, q.ints.items = p.ints.items ++ more
  reals : ∃ more, q.reals.items = p.reals.items ++ more
  strings : ∃ more, q.strings.items = p.strings.items ++ more

theorem Program.Continues.refl (p : Program) : p.Continues p :=
  ⟨⟨#[], by simp⟩, ⟨#[], by simp⟩, ⟨#[], by simp⟩, ⟨#[], by simp⟩⟩

theorem exists_append_trans {α : Type} {a b c : Array α} (h : ∃ more, b = a ++ more)
    (h' : ∃ more, c = b ++ more) : ∃ more, c = a ++ more := by
  obtain ⟨more, rfl⟩ := h
  obtain ⟨more', rfl⟩ := h'
  exact ⟨more ++ more', Array.append_assoc⟩

theorem Program.Continues.trans {p q r : Program} (h : p.Continues q) (h' : q.Continues r) : p.Continues r :=
  ⟨exists_append_trans h.code h'.code, exists_append_trans h.ints h'.ints,
    exists_append_trans h.reals h'.reals, exists_append_trans h.strings h'.strings⟩

theorem Pool.exists_push {α : Type} (p : Pool α) (a : α) : ∃ more, (p.push a).items = p.items ++ more :=
  ⟨#[a], by simp [push]⟩

theorem Pool.size_push_le {α : Type} {p : Pool α} {n bound : Nat} (h : p.size + (n + 1) ≤ bound) (a : α) :
    (p.push a).size + n ≤ bound := by
  have hsize : (p.push a).size = p.size + 1 := Array.size_push a
  omega

/-- A constant has the index that its pool had for the next one. -/
theorem Pool.get?_of_push {α : Type} {p q : Pool α} {a : α} (hsize : p.size < 2 ^ 63)
    (h : ∃ more, q.items = (p.push a).items ++ more) : q.get? (Int64.ofNat p.size) = some a := by
  obtain ⟨more, h⟩ := h
  rw [get?, Word.index?_ofNat hsize]
  dsimp only
  rw [h, Array.getElem?_append_left (by simp [push, size])]
  exact Array.getElem?_push_size

namespace Builder

theorem continues_emit (b : Builder) (op : Opcode) (operands : List Word) :
    b.program.Continues (b.emit op operands).program := by
  have h := Program.Continues.refl b.program
  exact ⟨⟨_, code_emit b op operands⟩, h.ints, h.reals, h.strings⟩

/-- After `n` more constants, each pool still has a word for the index of its last one. -/
structure HasRoom (b : Builder) (n : Nat) : Prop where
  ints : b.program.ints.size + n ≤ 2 ^ 63
  reals : b.program.reals.size + n ≤ 2 ^ 63
  strings : b.program.strings.size + n ≤ 2 ^ 63

variable {b : Builder} {n : Nat}

theorem HasRoom.mono (h : b.HasRoom n) {k : Nat} (hk : k ≤ n) : b.HasRoom k :=
  ⟨Nat.le_trans (Nat.add_le_add_left hk _) h.ints, Nat.le_trans (Nat.add_le_add_left hk _) h.reals,
    Nat.le_trans (Nat.add_le_add_left hk _) h.strings⟩

/-- `b'` is `b` with one more constant, which has the value `v` in every machine that has the program of `b'`. -/
structure Adds (b b' : Builder) (pool : Program.PoolName) (index : Word) (v : Value) : Prop where
  code_eq : b'.program.code = b.program.code
  error_eq : b'.error = b.error
  continues : b.program.Continues b'.program
  room : ∀ {n}, b.HasRoom (n + 1) → b'.HasRoom n
  constant_eq : ∀ {m : Machine}, b.HasRoom 1 → b'.program.Continues m.program → m.constant pool index = .ok v

theorem adds_int (b : Builder) (n : Int64) : b.Adds (b.addInt n) .integer b.nextInt (.int n) := by
  have hsame := Program.Continues.refl b.program
  constructor
  case code_eq | error_eq => rfl
  case continues => exact ⟨hsame.code, Pool.exists_push _ n, hsame.reals, hsame.strings⟩
  case room =>
    intro k hroom
    have hkept := hroom.mono (Nat.le_succ k)
    exact ⟨Pool.size_push_le hroom.ints n, hkept.reals, hkept.strings⟩
  case constant_eq =>
    intro m hroom hp
    have hfound := Pool.get?_of_push hroom.ints hp.ints
    simp only [Machine.constant, nextInt, hfound]
    rfl

theorem adds_real (b : Builder) (x : Float) : b.Adds (b.addReal x) .real b.nextReal (.real x) := by
  have hsame := Program.Continues.refl b.program
  constructor
  case code_eq | error_eq => rfl
  case continues => exact ⟨hsame.code, hsame.ints, Pool.exists_push _ x, hsame.strings⟩
  case room =>
    intro k hroom
    have hkept := hroom.mono (Nat.le_succ k)
    exact ⟨hkept.ints, Pool.size_push_le hroom.reals x, hkept.strings⟩
  case constant_eq =>
    intro m hroom hp
    have hfound := Pool.get?_of_push hroom.reals hp.reals
    simp only [Machine.constant, nextReal, hfound]
    rfl

theorem adds_string (b : Builder) (text : String) :
    b.Adds (b.addString text) .string b.nextString (.string (ByteString.ofString text)) := by
  have hsame := Program.Continues.refl b.program
  constructor
  case code_eq | error_eq => rfl
  case continues => exact ⟨hsame.code, hsame.ints, hsame.reals, Pool.exists_push _ text⟩
  case room =>
    intro k hroom
    have hkept := hroom.mono (Nat.le_succ k)
    exact ⟨hkept.ints, hkept.reals, Pool.size_push_le hroom.strings text⟩
  case constant_eq =>
    intro m hroom hp
    have hfound := Pool.get?_of_push hroom.strings hp.strings
    simp only [Machine.constant, nextString, hfound]
    rfl

end Builder

/-! ## Literals -/

/-- A value that a program can be given. -/
inductive Literal where
  | int (n : Int64)
  | real (x : Float)
  | string (text : String)

namespace Literal

/-- The call of a builder for a literal. -/
def call : Literal → Builder.Call
  | int n => .pushInt n
  | real x => .pushReal x
  | string text => .pushString text

def value : Literal → Value
  | int n => .int n
  | real x => .real x
  | string text => .string (ByteString.ofString text)

/-- A literal is emitted by one instruction, after its constant was added to `b` if it has one; a machine whose
program has the constant computes the literal by this instruction. -/
structure EmittedBy (l : Literal) (b b' : Builder) (op : Opcode) (operands : List Word) : Prop where
  apply_eq : l.call.apply b = b'.emit op operands
  arity_eq : operands.length = op.arity
  code_eq : b'.program.code = b.program.code
  error_eq : b'.error = b.error
  continues : b.program.Continues b'.program
  room : ∀ {n}, b.HasRoom (n + 1) → b'.HasRoom n
  pushes : ∀ {m : Machine} {d : Decoded}, b.HasRoom 1 → b'.program.Continues m.program → d.op = op →
    d.operands = operands → m.computed? d.instruction = some (m.stack.push l.value)

theorem instruction_shortInt {n : Int64} {op : Opcode} (h : Builder.shortInt? n = some op) :
    op.arity = 0 ∧ ∀ a b, op.instruction a b = .push (.int n) := by
  unfold Builder.shortInt? at h
  split_ifs at h <;> cases h <;> subst n <;> exact ⟨rfl, fun _ _ => rfl⟩

theorem emittedBy_short {b : Builder} {n : Int64} {op : Opcode} (h : Builder.shortInt? n = some op) :
    (int n).EmittedBy b b op [] := by
  obtain ⟨harity, hinstruction⟩ := instruction_shortInt h
  constructor
  case apply_eq => rw [call, Builder.Call.apply, Builder.pushInt, h]
  case arity_eq => exact harity.symm
  case code_eq | error_eq => rfl
  case continues => exact .refl _
  case room => exact fun hroom => hroom.mono (Nat.le_succ _)
  case pushes =>
    rintro m d - - rfl -
    rw [Decoded.instruction, hinstruction]
    rfl

theorem emittedBy_constant {l : Literal} {b b' : Builder} {op : Opcode} {pool : Program.PoolName} {index : Word}
    (h : b.Adds b' pool index l.value) (happly : l.call.apply b = b'.emit op [index])
    (hop : op.arity = 1 ∧ ∀ a b, op.instruction a b = .constant pool a) : l.EmittedBy b b' op [index] := by
  obtain ⟨harity, hinstruction⟩ := hop
  refine ⟨happly, harity.symm, h.code_eq, h.error_eq, h.continues, h.room, ?_⟩
  intro m d hroom hp hd hoperands
  rw [Decoded.operands, hd, harity] at hoperands
  rw [Decoded.instruction, hd, hinstruction, (List.cons.inj hoperands).1, Machine.computed?,
    h.constant_eq hroom hp]
  rfl

theorem exists_emittedBy (l : Literal) (b : Builder) : ∃ b' op operands, l.EmittedBy b b' op operands := by
  cases l with
  | int n =>
    cases hshort : Builder.shortInt? n with
    | some op => exact ⟨_, _, _, emittedBy_short hshort⟩
    | none =>
      have happly : (int n).call.apply b = (b.addInt n).emit .iconst [b.nextInt] := by
        rw [call, Builder.Call.apply, Builder.pushInt, hshort]
      exact ⟨_, _, _, emittedBy_constant (b.adds_int n) happly ⟨rfl, fun _ _ => rfl⟩⟩
  | real x => exact ⟨_, _, _, emittedBy_constant (b.adds_real x) rfl ⟨rfl, fun _ _ => rfl⟩⟩
  | string text => exact ⟨_, _, _, emittedBy_constant (b.adds_string text) rfl ⟨rfl, fun _ _ => rfl⟩⟩

end Literal

namespace Builder

/-- The builder after the literals. -/
def pushAll (b : Builder) (literals : List Literal) : Builder :=
  literals.foldl (fun b l => l.call.apply b) b

variable {b : Builder}

theorem continues_push (b : Builder) (l : Literal) : b.program.Continues (l.call.apply b).program := by
  obtain ⟨b', op, operands, h⟩ := l.exists_emittedBy b
  rw [h.apply_eq]
  exact h.continues.trans (b'.continues_emit op operands)

theorem continues_pushAll (b : Builder) (literals : List Literal) :
    b.program.Continues (b.pushAll literals).program := by
  induction literals generalizing b with
  | nil => exact .refl _
  | cons l literals ih => exact (b.continues_push l).trans (ih _)

theorem error_pushAll (b : Builder) (literals : List Literal) : (b.pushAll literals).error = b.error := by
  induction literals generalizing b with
  | nil => rfl
  | cons l literals ih =>
    obtain ⟨b', op, operands, h⟩ := l.exists_emittedBy b
    have hfirst : (l.call.apply b).error = b.error := by
      rw [h.apply_eq, b'.error_emit h.arity_eq, h.error_eq]
    exact (ih _).trans hfirst

theorem HasRoom.push {n : Nat} (hroom : b.HasRoom (n + 1)) (l : Literal) : (l.call.apply b).HasRoom n := by
  obtain ⟨b', op, operands, h⟩ := l.exists_emittedBy b
  rw [h.apply_eq]
  exact ⟨(h.room hroom).ints, (h.room hroom).reals, (h.room hroom).strings⟩

end Builder

namespace Machine

variable {m : Machine} {b : Builder}

/-! ## Steps -/

/-- The machine has no limits and is about to execute what comes after the code of the builder. -/
structure ReadyAt (m : Machine) (b : Builder) : Prop where
  running : m.state = .running
  unlimited : m.stack.limit = 0 ∧ m.config.maxInstructions = 0
  ip_eq : m.ip = b.program.code.size

/-- The step takes what was emitted next. -/
theorem ReadyAt.next? {op : Opcode} {operands : List Word} (h : m.ReadyAt b)
    (harity : operands.length = op.arity) (hp : (b.emit op operands).program.Continues m.program) :
    ∃ d, m.next? = some d ∧ d.op = op ∧ d.operands = operands
      ∧ d.next = (b.emit op operands).program.code.size := by
  obtain ⟨more, hcode⟩ := hp.code
  have hnext := Listing.next_emitted b.program.code op operands
  have hline := Listing.lineAt?_emitted b.program.code harity
  rw [Builder.code_emit] at hcode ⊢
  rw [← h.ip_eq] at hnext hline
  have hbudget : m.isBudgetExhausted = false := by simp [isBudgetExhausted, h.unlimited.2]
  have hline' : Listing.lineAt? m.program.code m.ip = some ⟨m.ip, op.word, some op, operands.map some⟩ := by
    rw [hcode]
    exact Listing.lineAt?_append hline (Nat.le_of_eq hnext)
  have hfits : (Line.mk m.ip op.word (some op) (operands.map some)).FitsIn m.program.code := by
    rw [Line.FitsIn, hnext, hcode]
    exact (Nat.le_add_right _ _).trans_eq Array.size_append.symm
  obtain ⟨d, hn, hop, hoperands, hd⟩ := next?_of_line h.running hbudget hline' rfl hfits
  exact ⟨d, hn, hop, (List.map_injective_iff.2 (fun _ _ => Option.some.inj) hoperands).symm, hd.trans hnext⟩

theorem step_literal (l : Literal) (h : m.ReadyAt b) (hroom : b.HasRoom 1)
    (hp : (l.call.apply b).program.Continues m.program) :
    m.step.reports = [] ∧ m.step.result = .ok .running ∧
      m.step.machine =
        { m with
          executed := m.executed + 1
          ip := (l.call.apply b).program.code.size
          stack := m.stack.put l.value } := by
  obtain ⟨b', op, operands, he⟩ := l.exists_emittedBy b
  rw [he.apply_eq] at hp ⊢
  have hready : m.ReadyAt b' := ⟨h.running, h.unlimited, he.code_eq ▸ h.ip_eq⟩
  obtain ⟨d, hn, hop, hoperands, hnext⟩ := hready.next? he.arity_eq hp
  have hpush : m.stack.push l.value = .ok (m.stack.put l.value) :=
    OperandStack.push_eq_ok.2 ⟨OperandStack.reserve_of_limit h.unlimited.1 1, rfl⟩
  have hcomputed : (m.fetch d).computed? d.instruction = some (.ok (m.stack.put l.value)) :=
    (he.pushes hroom ((b'.continues_emit op operands).trans hp) hop hoperands).trans (congrArg some hpush)
  obtain ⟨hr, hm⟩ := (step_of_computed hn hcomputed).2 _ rfl
  refine ⟨hr, ?_, ?_⟩
  · rw [step_of_next? hn, execute_computed hcomputed, ← h.running]
    rfl
  · rw [hm, ← hnext]
    rfl

theorem step_halt (h : m.ReadyAt b) (hp : (b.emit .halt []).program.Continues m.program) :
    m.step.reports = [] ∧ m.step.result = .ok .halted ∧
      ∃ ip, m.step.machine = { m with executed := m.executed + 1, ip, state := .halted } := by
  obtain ⟨d, hn, hop, -, -⟩ := h.next? rfl hp
  have hi : d.instruction = .halt := by rw [Decoded.instruction, hop]; rfl
  have hstep := step_of_next? hn
  rw [hi] at hstep
  have hhalted : (m.fetch d).Executes m.ip .halt ((m.fetch d).execute m.ip .halt) := .halted rfl
  obtain ⟨hm, hr⟩ := step_of_untrapped hstep hhalted rfl
  exact ⟨hr, by rw [hstep]; rfl, d.next, hm⟩

/-! ## Runs -/

theorem after_literals (literals : List Literal) (h : m.ReadyAt b) (hroom : b.HasRoom literals.length)
    (hp : (b.pushAll literals).program.Continues m.program) :
    (∀ k < literals.length, (m.after k).step.reports = [] ∧ (m.after k).step.result = .ok .running) ∧
      ∃ stack, m.after literals.length =
          { m with executed := m.executed + literals.length, ip := (b.pushAll literals).program.code.size, stack }
        ∧ stack.limit = 0 ∧ stack.toList = m.stack.toList ++ literals.map Literal.value := by
  induction literals generalizing m b with
  | nil => exact ⟨nofun, m.stack, by rw [Builder.pushAll, List.foldl_nil, ← h.ip_eq]; rfl, h.unlimited.1,
      (List.append_nil _).symm⟩
  | cons l literals ih =>
    have hfirst : (l.call.apply b).program.Continues m.program :=
      ((l.call.apply b).continues_pushAll literals).trans hp
    obtain ⟨hr, hresult, hm⟩ := step_literal l h (hroom.mono (Nat.succ_pos _)) hfirst
    have hready : m.step.machine.ReadyAt (l.call.apply b) := by
      rw [hm]
      exact ⟨h.running, h.unlimited, rfl⟩
    have hprogram : m.step.machine.program = m.program := by rw [hm]
    obtain ⟨hquiet, stack, hafter, hlimit, hstack⟩ := ih hready (hroom.push l) (hprogram ▸ hp)
    refine ⟨forall_after_succ (P := fun m => m.step.reports = [] ∧ m.step.result = .ok .running) ⟨hr, hresult⟩
      hquiet, stack, ?_, hlimit, ?_⟩
    · rw [List.length_cons, after, hafter, hm, Nat.add_assoc, Nat.add_comm 1]
      rfl
    · rw [hstack, hm, OperandStack.toList_put, List.append_assoc]
      rfl

/-- The machine executes `n` instructions, none with a fault, and is halted by the last of them with these values
on its stack. -/
structure HaltsWith (m : Machine) (n : Nat) (values : List Value) : Prop where
  running : ∀ k < n, (m.after k).state = .running
  quiet : ∀ k < n, (m.after k).step.reports = []
  state : (m.after n).state = .halted
  executed : (m.after n).executed = n
  count : (m.after n).reporter.count = 0
  stack : (m.after n).stack.toList = values
  run : ∀ {σ : Type} (watch : σ → Notice → σ) (seen : σ) steps, n ≤ steps →
    (m.runFor watch steps seen).result = some (.ok ())
      ∧ ∃ sink, (m.runFor watch steps seen).machine = { m.after n with sink }

/-- A new machine that goes on without a fault, and is then halted by the last instruction of its program. -/
theorem haltsWith_of_halt {n : Nat}
    (hgoes : ∀ k < n, (m.after k).step.reports = [] ∧ (m.after k).step.result = .ok .running)
    (hready : (m.after n).ReadyAt b) (hhalt : (b.emit .halt []).program.Continues (m.after n).program)
    (hexecuted : (m.after n).executed = n) (hcount : (m.after n).reporter.count = 0)
    (hsink : (m.after n).sink.NeverFails) : m.HaltsWith (n + 1) (m.after n).stack.toList := by
  obtain ⟨hr, hresult, ip, hhalted⟩ := step_halt hready hhalt
  have hsteps : ∀ k < n + 1, (m.after k).step.reports = [] ∧ ∃ state, (m.after k).step.result = .ok state := by
    intro k hk
    by_cases hlast : k = n
    · exact hlast ▸ ⟨hr, _, hresult⟩
    · obtain ⟨hr, hresult⟩ := hgoes k (by omega)
      exact ⟨hr, _, hresult⟩
  have hend : m.after (n + 1) = { m.after n with executed := n + 1, ip, state := .halted } := by
    rw [after_succ, hhalted, hexecuted]
  constructor
  case running =>
    intro k hk
    obtain ⟨-, state, hresult⟩ := hsteps k hk
    exact running_of_result hresult
  case quiet => exact fun k hk => (hsteps k hk).1
  case state | executed | stack => rw [hend]
  case count => rw [hend, hcount]
  case run =>
    intro σ watch seen steps hle
    obtain ⟨hmachine, hdone⟩ := runFor_of_halted watch seen (fun k hk => (hgoes k hk).2) hresult hle
    obtain ⟨sink, hfinish⟩ := finish_machine (m.after (n + 1))
    refine ⟨?_, sink, hmachine.trans hfinish⟩
    have hdelivered : (m.after (n + 1)).sink.NeverFails := hend ▸ hsink
    rw [hdone, finish, hdelivered.flush_eq]

/-- The program of the literals and a halt pushes them all, in order.  The index of a constant is a word, so no
program has more than `2 ^ 63` of a kind. -/
theorem literals_pushed (literals : List Literal) (hlength : literals.length ≤ 2 ^ 63) {sink : Sink}
    (hsink : sink.NeverFails) :
    ∃ p, (Builder.assemble (literals.map Literal.call ++ [.emitOp .halt])).build.1 = .ok p
      ∧ (Machine.start p sink).HaltsWith (literals.length + 1) (literals.map Literal.value) := by
  have hassemble : Builder.assemble (literals.map Literal.call ++ [.emitOp .halt])
      = (Builder.empty.pushAll literals).emit .halt [] := by
    rw [Builder.assemble_concat, Builder.assemble, List.foldl_map]
    rfl
  have herror : ((Builder.empty.pushAll literals).emit .halt []).error = none :=
    ((Builder.empty.pushAll literals).error_emit rfl).trans (Builder.empty.error_pushAll literals)
  refine ⟨_, by rw [hassemble, Builder.build, herror], ?_⟩
  have hcontinues := (Builder.empty.pushAll literals).continues_emit .halt []
  have hroom : Builder.empty.HasRoom literals.length := by
    constructor <;> exact (Nat.zero_add _).trans_le hlength
  obtain ⟨hgoes, stack, hafter, hlimit, hstack⟩ := after_literals
    (m := Machine.start ((Builder.empty.pushAll literals).emit .halt []).program sink) literals
    ⟨rfl, ⟨rfl, rfl⟩, rfl⟩ hroom hcontinues
  have hhalts := haltsWith_of_halt hgoes (b := Builder.empty.pushAll literals)
    (by rw [hafter]; exact ⟨rfl, ⟨hlimit, rfl⟩, rfl⟩) (by rw [hafter]; exact .refl _)
    (by rw [hafter]; exact Nat.zero_add _) (by rw [hafter]; rfl) (by rw [hafter]; exact hsink)
  rw [hafter, hstack] at hhalts
  exact hhalts

/-- A small integer, one that needs a constant, a real and a string. -/
theorem literals_pushed_mixed :
    [Literal.int 3, .int (-7), .real 0.5, .string "é"].length ≤ 2 ^ 63 ∧ Sink.unlimited.NeverFails ∧
      ∃ p, (Builder.assemble [.pushInt 3, .pushInt (-7), .pushReal 0.5, .pushString "é", .emitOp .halt]).build.1
          = .ok p
        ∧ (Machine.start p .unlimited).HaltsWith 5
            [.int 3, .int (-7), .real 0.5, .string (ByteString.ofString "é")] := by
  have hlength : [Literal.int 3, .int (-7), .real 0.5, .string "é"].length ≤ 2 ^ 63 := by decide
  exact ⟨hlength, Sink.neverFails_unlimited,
    literals_pushed [.int 3, .int (-7), .real 0.5, .string "é"] hlength Sink.neverFails_unlimited⟩

end Machine

end StackMachine

import Mathlib.Algebra.GroupWithZero.Nat
import StackMachine.Proofs.Frames.Transfers
import StackMachine.Proofs.Machine.Limits

/-!
Programs that only jump forward always stop.  A return still goes back to earlier code, so the address alone
bounds nothing.  But the work that is left at an address is more than twice that at any later one, so a call
can trade the former for the work at its target and behind it, and a return drops what is left of the callee.
-/

set_option autoImplicit false

namespace StackMachine

/-- The operation with its operands behind `address` has no target that lies at the address or before it. -/
def Program.JumpsForward (p : Program) (address : Nat) (op : Opcode) : Prop :=
  ∀ i < op.targetCount, ∀ ip ∈ p.code[address + 1 + i]?.bind Word.index?, address < ip

instance (p : Program) (address : Nat) (op : Opcode) : Decidable (p.JumpsForward address op) :=
  inferInstanceAs (Decidable (∀ i < op.targetCount, ∀ ip ∈ p.code[address + 1 + i]?.bind Word.index?,
    address < ip))

/-- No operation jumps back, at any address of the code, whether the listing has a line there or not. -/
def Program.IsForward (p : Program) : Prop :=
  ∀ address < p.code.size, ∀ op ∈ p.code[address]?.bind Opcode.ofWord?, p.JumpsForward address op

instance (p : Program) : Decidable p.IsForward :=
  inferInstanceAs (Decidable (∀ address < p.code.size, ∀ op ∈ p.code[address]?.bind Opcode.ofWord?,
    p.JumpsForward address op))

/-- The most instructions that a forward program executes from an address on until it returns from there. -/
def Program.workFrom (p : Program) (address : Nat) : Nat := 2 ^ (p.code.size - address) - 1

theorem Program.workFrom_pos {p : Program} {address : Nat} (h : address < p.code.size) :
    0 < p.workFrom address := by
  have hpow : 2 ^ 1 ≤ 2 ^ (p.code.size - address) := Nat.pow_le_pow_right Nat.two_pos (by omega)
  rw [workFrom]
  omega

theorem Program.workFrom_le {p : Program} {address later : Nat} (h : address ≤ later) :
    p.workFrom later ≤ p.workFrom address := by
  have hpow : 2 ^ (p.code.size - later) ≤ 2 ^ (p.code.size - address) :=
    Nat.pow_le_pow_right Nat.two_pos (by omega)
  rw [workFrom, workFrom]
  omega

/-- An instruction and all that is left to be done at two later addresses. -/
theorem Program.workFrom_double {p : Program} {address first second : Nat} (h : address < p.code.size)
    (hfirst : address < first) (hsecond : address < second) :
    p.workFrom first + p.workFrom second + 1 ≤ p.workFrom address := by
  have hsize : p.code.size - address = p.code.size - (address + 1) + 1 := by omega
  have hpos : 0 < 2 ^ (p.code.size - (address + 1)) := Nat.pow_pos Nat.two_pos
  have hnext : 2 * p.workFrom (address + 1) + 1 = p.workFrom address := by
    rw [workFrom, workFrom, hsize, Nat.pow_succ]
    omega
  have hle₁ : p.workFrom first ≤ p.workFrom (address + 1) := workFrom_le hfirst
  have hle₂ : p.workFrom second ≤ p.workFrom (address + 1) := workFrom_le hsecond
  omega

namespace Machine

variable {m m' : Machine} {d : Decoded}

/-- The most instructions that are left to be executed: from the current address on, and from each address
that a call waits to return to. -/
def work (m : Machine) : Nat :=
  if m.state = .running then m.program.workFrom m.ip + (m.returns.toList.map m.program.workFrom).sum else 0

/-! ## One step -/

/-- The operand words of an instruction are those behind it in the code. -/
theorem operand_of_next? (hn : m.next? = some d) {i : Nat} (hi : i < d.op.arity) :
    m.program.code[m.ip + 1 + i]? = [d.first, d.second][i]? := by
  obtain ⟨-, -, word, -, hd⟩ := decode_of_next? hn
  rw [decode] at hd
  split at hd
  · cases hd
  · next op hop =>
    dsimp only at hd
    split at hd
    · next hle =>
      cases hd
      dsimp only at hi ⊢
      have harity := op.arity_le
      have hget : m.program.code[m.ip + 1 + i]? = some (m.program.code.getD (m.ip + 1 + i) 0) := by
        rw [Array.getD_eq_getD_getElem?, Array.getElem?_eq_getElem (by omega), Option.getD_some]
      rw [hget]
      obtain rfl | rfl : i = 0 ∨ i = 1 := by omega
      · rw [if_pos hi]
        rfl
      · rw [if_pos hi]
        rfl
    · cases hd

theorem exists_operand_of_target (hn : m.next? = some d) {target : Word}
    (h : target ∈ d.instruction.targets) :
    ∃ i < d.op.targetCount, m.program.code[m.ip + 1 + i]? = some target := by
  rw [Decoded.instruction, Opcode.targets_instruction] at h
  obtain ⟨i, hi, hget⟩ := List.mem_iff_getElem.1 h
  rw [List.length_take] at hi
  have hcount : i < d.op.targetCount := by omega
  refine ⟨i, hcount, ?_⟩
  rw [operand_of_next? hn (Nat.lt_of_lt_of_le hcount d.op.targetCount_le), ← hget, List.getElem_take]
  exact List.getElem?_eq_getElem _

theorem lt_next (hn : m.next? = some d) : m.ip < d.next ∧ m.ip < m.program.code.size := by
  obtain ⟨-, -, -, hnext, hle⟩ := decodes_of_next? hn
  omega

/-- A forward program only goes to addresses behind the current one. -/
theorem lt_of_jumpTarget (hp : m.program.IsForward) (hn : m.next? = some d) {target : Word} {ip : Nat}
    (hmem : target ∈ d.instruction.targets) (h : m.jumpTarget target = .ok ip) : m.ip < ip := by
  obtain ⟨-, -, ⟨word, hword, hop⟩, -, -⟩ := decodes_of_next? hn
  obtain ⟨i, hi, hget⟩ := exists_operand_of_target hn hmem
  refine hp m.ip (lt_next hn).2 d.op ?_ i hi ip ?_
  · rw [hword]
    exact hop
  · rw [hget]
    exact (jumpTarget_eq_ok.1 h).1

theorem work_le (m : Machine) :
    m.work ≤ m.program.workFrom m.ip + (m.returns.toList.map m.program.workFrom).sum := by
  rw [work]
  split
  · exact Nat.le_refl _
  · exact Nat.zero_le _

theorem work_of_running (hr : m.state = .running) :
    m.work = m.program.workFrom m.ip + (m.returns.toList.map m.program.workFrom).sum := if_pos hr

/-- An instruction of a forward program leaves less work than there was. -/
theorem Transfers.work_lt (h : m.Transfers d m') (hp : m.program.IsForward) (hn : m.next? = some d)
    (hprogram : m'.program = m.program) : m'.work < m.work := by
  obtain ⟨hnext, hsize⟩ := lt_next hn
  have hle := m'.work_le
  rw [work_of_running (decodes_of_next? hn).running]
  rw [hprogram] at hle
  cases h with
  | keeps _ hreturns hip =>
    have hlt : m.ip < m'.ip := by
      rcases hip with hip | ⟨target, hmem, hip⟩
      · exact hip ▸ hnext
      · exact lt_of_jumpTarget hp hn hmem hip
    have hdouble := Program.workFrom_double hsize hlt hlt
    rw [hreturns] at hle
    omega
  | @calls target argc hi _ hreturns hip =>
    have hmem : target ∈ d.instruction.targets := by
      rw [hi]
      exact List.mem_singleton_self _
    have hdouble := Program.workFrom_double hsize (lt_of_jumpTarget hp hn hmem hip) hnext
    rw [hreturns, Pile.toList_push, List.map_append, List.sum_append, List.map_singleton,
      List.sum_singleton] at hle
    omega
  | resumes _ hresumes =>
    obtain ⟨pending, hbefore, hafter⟩ := hresumes.latest
    have hpos := Program.workFrom_pos hsize
    rw [hafter] at hle
    rw [hbefore, List.map_append, List.sum_append, List.map_singleton, List.sum_singleton]
    omega

/-- A step of a forward program trades work that is left for an instruction executed. -/
theorem step_work (fits : m.stack.Fits) (hp : m.program.IsForward) :
    m.step.machine.executed + m.step.machine.work ≤ m.executed + m.work := by
  cases hn : m.next? with
  | none =>
    obtain ⟨hstopped, -, -, hexecuted⟩ := step_of_next?_eq_none hn
    have hzero : m.step.machine.work = 0 := if_neg hstopped
    rcases hexecuted with hexecuted | ⟨hexecuted, hr, hlt⟩
    · omega
    · have hpos := Program.workFrom_pos hlt
      rw [work_of_running hr]
      omega
  | some d =>
    have hlt := (step_transfers fits hn).work_lt hp hn (step_sameSettings fits).program_eq
    rw [executed_of_next? fits hn]
    omega

/-! ## Runs -/

theorem after_work (fits : m.stack.Fits) (hp : m.program.IsForward) (n : Nat) :
    (m.after n).executed + (m.after n).work ≤ m.executed + m.work := by
  induction n with
  | zero => exact Nat.le_refl _
  | succ n ih =>
    obtain ⟨hsame, hfits⟩ := after_sameSettings fits n
    rw [after_succ]
    exact Nat.le_trans (step_work hfits (hsame.program_eq ▸ hp)) ih

/-- A machine that is still running has executed an instruction at every step. -/
theorem executed_after (fits : m.stack.Fits) {n : Nat} (hr : (m.after n).state = .running) :
    (m.after n).executed = m.executed + n := by
  induction n with
  | zero => rfl
  | succ n ih =>
    have hfits := (after_sameSettings fits n).2
    rw [after_succ] at hr ⊢
    cases hn : (m.after n).next? with
    | none => exact absurd hr (step_of_next?_eq_none hn).1
    | some d =>
      rw [executed_of_next? hfits hn, ih (decodes_of_next? hn).running]
      omega

/-- The result of a step that does not fail is the state that it leads to. -/
theorem state_of_raise {start : Nat} {cause : Cause} {before : List Notice} {state : RunState}
    (h : (m.raise start cause before).result = .ok state) :
    (m.raise start cause before).machine.state = state := by
  obtain ⟨hstops, -⟩ := raise_result_eq_ok h
  rw [raise_result] at h
  rw [raise_machine, hstops]
  split at h
  · cases h
  · split at h
    · cases h
    · cases h
      rfl

theorem state_of_step {state : RunState} (h : m.step.result = .ok state) :
    m.step.machine.state = state := by
  have hsteps := steps m
  generalize m.step = r at h hsteps
  cases hsteps with
  | stopped => cases h
  | ended => cases h; rfl
  | exhausted | undecoded => exact state_of_raise h
  | performed =>
    rw [settle] at h ⊢
    split at h
    · cases h
      rfl
    · exact state_of_raise h
    · cases h

theorem runFor_of_running {σ : Type} (watch : σ → Notice → σ) (seen : σ) (n : Nat)
    (h : m.step.result = .ok .running) :
    m.runFor watch (n + 1) seen = m.step.machine.runFor watch n (m.step.notices.foldl watch seen) := by
  rw [runFor]
  simp only [h]

theorem runFor_of_not_running {σ : Type} (watch : σ → Notice → σ) (seen : σ) (n : Nat)
    (h : m.step.result ≠ .ok .running) : (m.runFor watch (n + 1) seen).result ≠ none := by
  rw [runFor]
  dsimp only
  split
  · simp
  · next hresult => exact absurd hresult h
  · simp

/-- A run that is given steps enough for the machine to stop has a result. -/
theorem runFor_result {σ : Type} (watch : σ → Notice → σ) (seen : σ) (n : Nat)
    (h : (m.after (n + 1)).state ≠ .running) : (m.runFor watch (n + 1) seen).result ≠ none := by
  induction n generalizing m seen with
  | zero => exact runFor_of_not_running watch seen 0 fun hresult => h (state_of_step hresult)
  | succ n ih =>
    by_cases hresult : m.step.result = .ok .running
    · rw [runFor_of_running watch seen _ hresult]
      exact ih _ h
    · exact runFor_of_not_running watch seen _ hresult

/-- The machine executes at most `bound` instructions in all, and needs no more than `bound` further steps
to stop, however it is run. -/
structure StopsWithin (bound : Nat) (m : Machine) : Prop where
  stops : (m.after bound).state = .halted ∨ (m.after bound).state = .faulted
  executed_le : ∀ n, (m.after n).executed ≤ bound
  result : ∀ {σ : Type} (watch : σ → Notice → σ) (seen : σ), (m.runFor watch bound seen).result ≠ none

theorem stopsWithin_of_work {bound : Nat} (fits : m.stack.Fits) (hp : m.program.IsForward)
    (h : m.executed + m.work < bound) : m.StopsWithin bound := by
  have hstops : (m.after bound).state ≠ .running := by
    intro hr
    have hwork := after_work fits hp bound
    rw [executed_after fits hr] at hwork
    omega
  constructor
  case stops =>
    cases hstate : (m.after bound).state with
    | running => exact absurd hstate hstops
    | halted => exact .inl rfl
    | faulted => exact .inr rfl
  case executed_le =>
    intro n
    have hwork := after_work fits hp n
    omega
  case result =>
    intro σ watch seen
    obtain ⟨n, rfl⟩ : ∃ n, bound = n + 1 := ⟨bound - 1, by omega⟩
    exact runFor_result watch seen n hstops

section Reachable

variable {program : Program} {config : Config} {sink : Sink}

theorem Reachable.work_lt (hp : program.IsForward) (h : Reachable program config sink m) :
    m.executed + m.work < 2 ^ program.code.size := by
  induction h with
  | configured =>
    have hpos : 0 < 2 ^ program.code.size := Nat.pow_pos Nat.two_pos
    change 0 + (2 ^ (program.code.size - 0) - 1 + 0) < 2 ^ program.code.size
    rw [Nat.sub_zero]
    omega
  | @load m args h ih =>
    rcases load_cases m args with ⟨e, he⟩ | ⟨-, -, -, stack, -, he⟩ <;> rw [he]
    · exact ih
    · exact ih
  | @step m h ih => exact Nat.lt_of_le_of_lt (step_work h.fits (h.program_eq ▸ hp)) ih
  | @finish m h ih =>
    obtain ⟨sink, he⟩ := finish_machine m
    rw [he]
    exact ih

end Reachable

end Machine

end StackMachine

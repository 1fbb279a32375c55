import StackMachine.Proofs.Frames.Transfers

/-!
Where control can go.  Whatever a program does to its stack, links and counts included, it goes on inside the
code or at its end, and returns only resume behind calls, the latest pending one first.
-/

set_option autoImplicit false

namespace StackMachine

/-- The word of a known operation is that of the operation. -/
theorem Opcode.word_of_ofWord? {w : Word} {op : Opcode} (h : ofWord? w = some op) : w = op.word := by
  rw [ofWord?] at h
  split at h
  · next n hn =>
    rw [Array.getD_eq_getD_getElem?, table, Array.getElem?_ofFn] at h
    split at h
    · have hfound : (all.find? fun op => op.number == n) = some op := h
      have hnumber := List.find?_some hfound
      rw [word, beq_iff_eq.1 hnumber, Word.ofNat_of_index? hn]
    · cases h
  · cases h

theorem Opcode.eq_call_of_instruction {op : Opcode} {a b target argc : Word}
    (h : op.instruction a b = .call target argc) : op = .call := by
  cases op with
  | call => rfl
  | _ => cases h

/-- An address behind the three words of a call. -/
structure Program.IsContinuation (p : Program) (address : Nat) : Prop where
  three_le : 3 ≤ address
  address_le : address ≤ p.code.size
  word_eq : p.code[address - 3]? = some Opcode.call.word

namespace Machine

open Transfer

variable {m m' : Machine} {d : Decoded}

/-! ## Runs -/

/-- The address to go on at lies in the code or at its end, and every return address behind a call. -/
structure StaysInCode (m : Machine) : Prop where
  ip_le : m.ip ≤ m.program.code.size
  returns : ∀ address ∈ m.returns.toList, m.program.IsContinuation address

theorem isContinuation_of_next? (hn : m.next? = some d) {target argc : Word}
    (hi : d.instruction = .call target argc) : m.program.IsContinuation d.next := by
  obtain ⟨-, -, ⟨word, hword, hop⟩, hnext, hle⟩ := decodes_of_next? hn
  have hcall : d.op = .call := Opcode.eq_call_of_instruction hi
  rw [hcall] at hnext hop
  change d.next = m.ip + 1 + 2 at hnext
  refine ⟨by omega, hle, ?_⟩
  rw [hnext, Nat.add_assoc, Nat.add_sub_cancel, hword, Opcode.word_of_ofWord? hop]

theorem Transfers.staysInCode (h : m.Transfers d m') (hn : m.next? = some d)
    (hp : m'.program = m.program) (hm : m.StaysInCode) : m'.StaysInCode := by
  cases h with
  | keeps _ hreturns hip =>
    refine ⟨?_, by rw [hp, hreturns]; exact hm.returns⟩
    rw [hp]
    rcases hip with hip | ⟨target, -, hip⟩
    · rw [hip]
      exact (decodes_of_next? hn).next_le
    · exact Nat.le_of_lt (jumpTarget_eq_ok.1 hip).2
  | calls hi _ hreturns hip =>
    refine ⟨by rw [hp]; exact Nat.le_of_lt (jumpTarget_eq_ok.1 hip).2, ?_⟩
    rw [hp, hreturns, Pile.toList_push]
    intro address hmem
    rcases List.mem_append.1 hmem with hmem | hmem
    · exact hm.returns address hmem
    · rw [List.mem_singleton.1 hmem]
      exact isContinuation_of_next? hn hi
  | resumes _ hresumes =>
    obtain ⟨pending, hbefore, hafter⟩ := hresumes.latest
    have hreturns := hm.returns
    rw [hbefore] at hreturns
    refine ⟨?_, ?_⟩ <;> rw [hp]
    · exact (hreturns _ (List.mem_append_right _ (List.mem_singleton_self _))).address_le
    · rw [hafter]
      exact fun address hmem => hreturns address (List.mem_append_left _ hmem)

theorem Transfers.pending (h : m.Transfers d m') {past : List Transfer}
    (hm : Pending past m.returns.toList) : Pending (past ++ m.transfer?.toList) m'.returns.toList := by
  cases h with
  | keeps htransfer hreturns =>
    rw [htransfer, hreturns, Option.toList_none, List.append_nil]
    exact hm
  | calls _ htransfer hreturns =>
    rw [htransfer, hreturns, Pile.toList_push]
    exact hm.push _
  | resumes htransfer hresumes =>
    obtain ⟨pending, hbefore, hafter⟩ := hresumes.latest
    rw [hbefore] at hm
    rw [htransfer, hafter]
    exact hm.pop

theorem step_invariant (fits : m.stack.Fits) {past : List Transfer} (hm : m.StaysInCode)
    (hpending : Pending past m.returns.toList) :
    m.step.machine.StaysInCode
      ∧ Pending (past ++ m.transfer?.toList) m.step.machine.returns.toList := by
  have hp := (step_sameSettings fits).program_eq
  cases hn : m.next? with
  | none =>
    obtain ⟨-, hip, hreturns, -⟩ := step_of_next?_eq_none hn
    rw [transfer?_of_next? hn, hreturns, Option.toList_none, List.append_nil]
    refine ⟨⟨?_, ?_⟩, hpending⟩
    · rw [hip, hp]
      exact hm.ip_le
    · rw [hreturns, hp]
      exact hm.returns
  | some d =>
    have htransfers := step_transfers fits hn
    exact ⟨htransfers.staysInCode hn hp hm, htransfers.pending hpending⟩

/-- The machines that a host gets to, with all that happened to the calls on the way. -/
inductive History (program : Program) (config : Config) (sink : Sink) : Machine → List Transfer → Prop
  | configured : History program config sink ((Machine.start program sink).withConfig config) []
  | load {m : Machine} {past : List Transfer} (args : List Value) (h : History program config sink m past) :
    History program config sink (m.load args).machine past
  | step {m : Machine} {past : List Transfer} (h : History program config sink m past) :
    History program config sink m.step.machine (past ++ m.transfer?.toList)
  | finish {m : Machine} {past : List Transfer} (h : History program config sink m past) :
    History program config sink m.finish.1 past

section Reachable

variable {program : Program} {config : Config} {sink : Sink}

theorem Reachable.exists_history (h : Reachable program config sink m) :
    ∃ past, History program config sink m past := by
  induction h with
  | configured => exact ⟨_, .configured⟩
  | load args _ ih =>
    obtain ⟨past, h⟩ := ih
    exact ⟨_, h.load args⟩
  | step _ ih =>
    obtain ⟨past, h⟩ := ih
    exact ⟨_, h.step⟩
  | finish _ ih =>
    obtain ⟨past, h⟩ := ih
    exact ⟨_, h.finish⟩

theorem History.reachable {past : List Transfer} (h : History program config sink m past) :
    Reachable program config sink m := by
  induction h with
  | configured => exact .configured
  | load args _ ih => exact ih.load args
  | step _ ih => exact ih.step
  | finish _ ih => exact ih.finish

theorem History.invariant {past : List Transfer} (h : History program config sink m past) :
    m.StaysInCode ∧ Pending past m.returns.toList := by
  induction h with
  | configured => exact ⟨⟨Nat.zero_le _, nofun⟩, .none .nil⟩
  | @load m past args _ ih =>
    rcases load_cases m args with ⟨e, he⟩ | ⟨-, -, -, stack, -, he⟩ <;> rw [he]
    · exact ih
    · exact ⟨⟨ih.1.ip_le, ih.1.returns⟩, ih.2⟩
  | step h ih => exact step_invariant h.reachable.fits ih.1 ih.2
  | @finish m past _ ih =>
    obtain ⟨sink, he⟩ := finish_machine m
    rw [he]
    exact ⟨⟨ih.1.ip_le, ih.1.returns⟩, ih.2⟩

/-- Control stays where the code allows it: at an address of the code or at its end, with the calls that no
return has matched as the return addresses.  A frame that is left without a fault resumes the latest of them,
or halts the machine. -/
theorem control_flow_integrity (h : Reachable program config sink m) :
    m.ip ≤ program.code.size
      ∧ (∀ address ∈ m.returns.toList, program.IsContinuation address)
      ∧ (∃ past, History program config sink m past)
      ∧ (∀ past, History program config sink m past →
        ∀ pending, Pending past pending ↔ pending = m.returns.toList)
      ∧ ∀ d withResult, m.next? = some d → d.instruction = .leave withResult → m.step.reports = [] →
        (m.step.machine.state = .running ∧ m.Resumes m.step.machine withResult) ∨
          m.step.machine.state = .halted ∧ m.step.machine.returns = m.returns := by
  obtain ⟨past, hpast⟩ := h.exists_history
  have hcode := hpast.invariant.1
  refine ⟨h.program_eq ▸ hcode.ip_le, h.program_eq ▸ hcode.returns, ⟨past, hpast⟩, ?_, ?_⟩
  · intro past hpast pending
    have hpending := hpast.invariant.2
    exact ⟨hpending.unique, fun heq => heq ▸ hpending⟩
  · intro d withResult hn hi hreports
    exact leaves_of_next? h.fits hn hi hreports

end Reachable

/-- In a callee that has dropped its link, so that its frame begins above the stack, the call is still the one
to resume behind. -/
theorem control_flow_integrity_forged :
    ∃ program m, Reachable program .default .unlimited m ∧ m.returns.toList = [3]
      ∧ m.stack.toList = [.int 0] ∧ m.fp = 2 ∧ m.ip ≤ program.code.size
      ∧ (∀ address ∈ m.returns.toList, program.IsContinuation address)
      ∧ (∃ past, History program .default .unlimited m past)
      ∧ (∀ past, History program .default .unlimited m past →
        ∀ pending, Pending past pending ↔ pending = m.returns.toList)
      ∧ ∀ d withResult, m.next? = some d → d.instruction = .leave withResult → m.step.reports = [] →
        (m.step.machine.state = .running ∧ m.Resumes m.step.machine withResult) ∨
          m.step.machine.state = .halted ∧ m.step.machine.returns = m.returns := by
  let program : Program :=
    ⟨#[Opcode.call.word, 3, 0, Opcode.drop.word, Opcode.iconst0.word, Opcode.clear.word], .empty, .empty,
      .empty⟩
  let m₀ := (Machine.start program .unlimited).withConfig .default
  let d₀ : Decoded := ⟨.call, 3, 0, 3⟩
  let m₁ := (m₀.fetch d₀).enter 3 0
  let d₁ : Decoded := ⟨.drop, 0, 0, 4⟩
  let m₂ : Machine := { m₁.fetch d₁ with stack := m₁.stack.drop 1 }
  have hn₀ : m₀.next? = some d₀ := by
    simp [next?, m₀, d₀, program, withConfig, Machine.start, decode, isBudgetExhausted, Config.default,
      Except.toOption, Opcode.arity]
  have hn₁ : m₁.next? = some d₁ := by
    simp [next?, m₁, m₀, d₀, d₁, program, withConfig, enter, fetch, Machine.start, decode,
      isBudgetExhausted, Config.default, Except.toOption, Opcode.arity]
  have hm₁ : m₀.step.machine = m₁ := by
    rw [step_of_next? hn₀]
    rfl
  have hm₂ : m₁.step.machine = m₂ := by
    rw [step_of_next? hn₁]
    rfl
  have hreach : Reachable program .default .unlimited m₂ := by
    rw [← hm₂, ← hm₁]
    exact .step (.step .configured)
  exact ⟨program, m₂, hreach, rfl, rfl, rfl, control_flow_integrity hreach⟩

end Machine

end StackMachine
